import Libogc.Lwp.MessageLists
/-!
# MessageRuns — a message queue is a double-ended queue

`MqThread` says where a thread stands: outside, inside a send that has not been decided, blocked, or at the end of its call.
Receivers block on an empty queue and senders on a full one, so the threads of the one wait queue are all of one kind
whenever a dequeue picks one.  The history of the messages is a run of a double-ended queue whose contents are the pending
buffers.
-/
namespace Libogc

open Links Runs

set_option linter.unusedSectionVars false

variable {T W M : Type} [DecidableEq T] [DecidableEq W]

def MqState.sync (s : MqState T W M) : SyncState := (s.kernel.tq s.mq.waitQueue).syncState
def MqState.Entering (s : MqState T W M) (t : T) : Prop := ∃ e, s.phase.enq = some e ∧ e.thread = t
def MqState.Submitting (s : MqState T W M) (t : T) : Prop := s.phase = .submitting ∧ s.kernel.executing = t

/-- The buffer that a receive has emptied. -/
def MqState.hand (s : MqState T W M) : Option Nat :=
  match s.phase with
  | .refilling b => some b
  | .idle | .submitting | .entering _ | .closing => none

/-- **A blocked call.**  With `clean`, a sender blocks with no error of an earlier call in its `ret_code`. -/
inductive MqBlock (clean : Prop) (s : MqState T W M) (t : T) : MqCall M → Prop
  | receiver (status : Option (BitVec 32)) (ret : s.retCode t = mqSuccessful) (args : s.waits t = ⟨some t, .size t⟩) :
    MqBlock clean s t ⟨.receive, status, none⟩
  | sender (call : MqSend) (msg : M) (ret : clean → s.retCode t = mqSuccessful) (args : s.waits t = ⟨some t, .word mqMsgSize⟩)
    (frame : s.frame t = msg) (cnt : (s.kernel.thr t).wait.cnt = call.type) :
    MqBlock clean s t ⟨.send call msg, some mqUnsatisfiedWait, none⟩

/-- **How a call ends.** -/
inductive MqEnd (clean : Prop) (s : MqState T W M) (t : T) : MqCall M → Prop
  | received (status : Option (BitVec 32)) (m : M) (ret : s.retCode t = mqSuccessful) (frame : s.frame t = m) :
    MqEnd clean s t ⟨.receive, status, some m⟩
  | nothing (status : Option (BitVec 32)) (ret : s.retCode t ≠ mqSuccessful) : MqEnd clean s t ⟨.receive, status, none⟩
  | accepted (call : MqSend) (msg : M) : MqEnd clean s t ⟨.send call msg, some mqSuccessful, some msg⟩
  | refused (call : MqSend) (msg : M) (status : BitVec 32) (fails : status ≠ mqSuccessful) (now : status ≠ mqUnsatisfiedWait) :
    MqEnd clean s t ⟨.send call msg, some status, none⟩
  | late (call : MqSend) (msg : M) (ret : clean → s.retCode t = mqSuccessful) :
    MqEnd clean s t ⟨.send call msg, some mqUnsatisfiedWait, some msg⟩
  | gaveUp (call : MqSend) (msg : M) (ret : s.retCode t ≠ mqSuccessful) :
    MqEnd clean s t ⟨.send call msg, some mqUnsatisfiedWait, none⟩

/-- Where a thread stands. -/
inductive MqThread (clean : Prop) (s : MqState T W M) (Qs : QId T W → Option (List T)) (t : T) : Prop
  | outside (call : s.calls t = none) (out : ¬ Waits Qs s.mq.waitQueue t) (notIn : ¬ s.Entering t) (notSub : ¬ s.Submitting t)
  | running (send : MqSend) (msg : M) (call : s.calls t = some ⟨.send send msg, none, none⟩) (sub : s.Submitting t)
    (ready : s.kernel.Ready t) (frame : s.frame t = msg)
  | inside (c : MqCall M) (call : s.calls t = some c) (on : Waits Qs s.mq.waitQueue t ∨ s.Entering t)
    (notSub : ¬ s.Submitting t) (how : MqBlock clean s t c)
  | ended (c : MqCall M) (call : s.calls t = some c) (ready : s.kernel.Ready t) (notIn : ¬ s.Entering t)
    (notSub : ¬ s.Submitting t) (how : MqEnd clean s t c)

variable {clean : Prop} {s s' : MqState T W M} {Qs Qs' : QId T W → Option (List T)} {t : T} {w : W} {count : BitVec 32}
  {pend inact : List Nat}

variable {c : MqCall M}

theorem MqBlock.congr (h : MqBlock clean s t c) (hwait : (s'.kernel.thr t).wait = (s.kernel.thr t).wait)
    (hargs : s'.waits t = s.waits t) (hframe : s'.frame t = s.frame t) : MqBlock clean s' t c := by
  have hret : s'.retCode t = s.retCode t := by rw [MqState.retCode, hwait]; rfl
  cases h with
  | receiver status h1 h2 => exact .receiver status (hret.trans h1) (hargs.trans h2)
  | sender call msg h1 h2 h3 h4 =>
    exact .sender call msg (fun hc => hret.trans (h1 hc)) (hargs.trans h2) (hframe.trans h3) (by rw [hwait]; exact h4)

theorem MqEnd.congr (h : MqEnd clean s t c) (hret : s'.retCode t = s.retCode t) (hframe : s'.frame t = s.frame t) : MqEnd clean s' t c := by
  cases h with
  | received status m h1 h2 => exact .received status m (hret.trans h1) (hframe.trans h2)
  | nothing status h1 => exact .nothing status (by rw [hret]; exact h1)
  | accepted call msg => exact .accepted call msg
  | refused call msg status h1 h2 => exact .refused call msg status h1 h2
  | late call msg h1 => exact .late call msg (fun hc => hret.trans (h1 hc))
  | gaveUp call msg h1 => exact .gaveUp call msg (by rw [hret]; exact h1)

theorem MqBlock.fail (h : MqBlock clean s t c) (hret : s'.retCode t ≠ mqSuccessful) : MqEnd clean s' t c := by
  cases h with
  | receiver status _ _ => exact .nothing status hret
  | sender call msg _ _ _ _ => exact .gaveUp call msg hret

theorem MqThread.congr (h : MqThread clean s Qs t) (hthr : s'.kernel.thr t = s.kernel.thr t) (hcall : s'.calls t = s.calls t)
    (hargs : s'.waits t = s.waits t) (hframe : s'.frame t = s.frame t)
    (hwait : Waits Qs' s'.mq.waitQueue t ↔ Waits Qs s.mq.waitQueue t) (hent : s'.Entering t ↔ s.Entering t)
    (hsub : s'.Submitting t ↔ s.Submitting t) : MqThread clean s' Qs' t := by
  have hret : s'.retCode t = s.retCode t := by rw [MqState.retCode, hthr]; rfl
  have hready : s'.kernel.Ready t ↔ s.kernel.Ready t := by rw [Kernel.Ready, hthr]; rfl
  cases h with
  | outside h1 h2 h3 h4 => exact .outside (hcall.trans h1) (mt hwait.1 h2) (mt hent.1 h3) (mt hsub.1 h4)
  | running call msg h1 h2 h3 h4 => exact .running call msg (hcall.trans h1) (hsub.2 h2) (hready.2 h3) (hframe.trans h4)
  | inside c h1 h2 h3 h4 =>
    exact .inside c (hcall.trans h1) (h2.imp hwait.2 hent.2) (mt hsub.1 h3) (h4.congr (by rw [hthr]) hargs hframe)
  | ended c h1 h2 h3 h4 h5 =>
    exact .ended c (hcall.trans h1) (hready.2 h2) (mt hent.1 h3) (mt hsub.1 h4) (h5.congr hret hframe)

/-- **The queue while it exists**: where its buffers are, what they hold, and who is blocked. -/
structure MqData (count : BitVec 32) (s : MqState T W M) (Qs : QId T W → Option (List T)) (pend inact : List Nat) : Prop where
  buffers : MqBuffers count.toNat s.mq pend inact s.hand
  law : Deque.Run s.log (s.mq.contents pend)
  receivers : ∀ t c, s.calls t = some c → Waits Qs s.mq.waitQueue t ∨ s.Entering t → c.kind = .receive →
    pend = [] ∧ s.hand = none
  senders : ∀ t c, s.calls t = some c → Waits Qs s.mq.waitQueue t ∨ s.Entering t → c.kind ≠ .receive → inact = []
  asked : s.phase = .submitting → pend = [] → ∀ t, ¬ Waits Qs s.mq.waitQueue t

/-- **What every run keeps.** -/
structure MqInv (clean : Prop) (count : BitVec 32) (w : W) (s : MqState T W M) (Qs : QId T W → Option (List T))
    (pend inact : List Nat) : Prop where
  tq : TqInv s.kernel Qs s.phase.enq
  queue : s.mq.waitQueue = w
  timeout : (s.kernel.tq w).timeoutStatus = mqTimeout
  phase : ∀ e, s.phase.enq = some e → e.queue = w ∧ s.sync ≠ .satisfied
  shut : (s.opened = false → s.phase = .idle ∨ s.phase = .closing) ∧ (s.phase = .closing → s.opened = false)
  threads : ∀ t, MqThread clean s Qs t
  data : s.opened = true → MqData count s Qs pend inact

theorem MqInv.waiter (h : MqInv clean count w s Qs pend inact) (ht : Waits Qs w t) :
    ∃ c, s.calls t = some c ∧ MqBlock clean s t c ∧ ¬ s.Submitting t := by
  rw [← h.queue] at ht
  cases h.threads t with
  | outside _ h2 _ _ => exact absurd ht h2
  | running _ _ _ _ h4 _ => exact absurd h4 (h.tq.not_ready ht)
  | inside c h1 _ h3 h4 => exact ⟨c, h1, h4, h3⟩
  | ended _ _ h2 _ _ _ => exact absurd h2 (h.tq.not_ready ht)

theorem MqInv.outside (h : MqInv clean count w s Qs pend inact) (hc : s.calls t = none) :
    ¬ Waits Qs s.mq.waitQueue t ∧ ¬ s.Entering t ∧ ¬ s.Submitting t := by
  cases h.threads t with
  | outside _ h2 h3 h4 => exact ⟨h2, h3, h4⟩
  | running _ _ h1 _ _ _ => rw [hc] at h1; cases h1
  | inside _ h1 _ _ _ => rw [hc] at h1; cases h1
  | ended _ h1 _ _ _ _ => rw [hc] at h1; cases h1

theorem MqState.idle_out (hph : s.phase = .idle) (t : T) : ¬ s.Entering t ∧ ¬ s.Submitting t := by
  constructor
  · rintro ⟨e, he, -⟩
    rw [hph] at he
    cases he
  · rintro ⟨he, -⟩
    rw [hph] at he
    cases he

theorem MqInv.served_receiver (h : MqInv clean count w s Qs [] inact) (hpos : 0 < count) (ho : s.opened = true)
    (hand : s.hand = none) (ht : Waits Qs w t) :
    ∃ status, s.calls t = some ⟨.receive, status, none⟩ ∧ s.retCode t = mqSuccessful ∧ s.waits t = ⟨some t, .size t⟩ := by
  obtain ⟨c, hc, hb, -⟩ := h.waiter ht
  cases hb with
  | receiver status h1 h2 => exact ⟨status, hc, h1, h2⟩
  | sender call msg _ _ _ _ =>
    have hi := (h.data ho).senders t _ hc (.inl (h.queue.symm ▸ ht)) (by simp)
    have htot := (h.data ho).buffers.total
    rw [hi, hand] at htot
    simp only [List.length_nil, Option.toList_none] at htot
    bv_omega

theorem MqInv.served_sender (h : MqInv clean count w s Qs pend inact) (ho : s.opened = true) {b : Nat}
    (hand : s.hand = some b) (ht : Waits Qs w t) :
    ∃ call msg, s.calls t = some ⟨.send call msg, some mqUnsatisfiedWait, none⟩ ∧ (clean → s.retCode t = mqSuccessful) ∧
      s.waits t = ⟨some t, .word mqMsgSize⟩ ∧ s.frame t = msg ∧ (s.kernel.thr t).wait.cnt = call.type ∧ inact = [] := by
  obtain ⟨c, hc, hb, -⟩ := h.waiter ht
  cases hb with
  | receiver status _ _ =>
    have := ((h.data ho).receivers t _ hc (.inl (h.queue.symm ▸ ht)) rfl).2
    rw [hand] at this
    cases this
  | sender call msg h1 h2 h3 h4 =>
    exact ⟨call, msg, hc, h1, h2, h3, h4, (h.data ho).senders t _ hc (.inl (h.queue.symm ▸ ht)) (by simp)⟩

/-- **A call ends where it is**, without a change to the wait queue: it leaves the lists as they are unless nobody waits. -/
theorem MqInv.concluded {pend' inact' : List Nat} (h : MqInv clean count w s Qs pend inact) (ho : s.opened = true)
    (hcut : ∀ v, ¬ s.Entering v ∧ (v ≠ t → ¬ s.Submitting v)) (hph : s'.phase = .idle) (htq : TqInv s'.kernel Qs none)
    (hkq : s'.kernel.tq = s.kernel.tq) (hqueue : s'.mq.waitQueue = w) (hthr : ∀ v, v ≠ t → s'.kernel.thr v = s.kernel.thr v)
    (hcalls : ∀ v, v ≠ t → s'.calls v = s.calls v) (hargs : ∀ v, v ≠ t → s'.waits v = s.waits v)
    (hframe : ∀ v, v ≠ t → s'.frame v = s.frame v) (hr : s'.kernel.Ready t) (hc : s'.calls t = some c) (hend : MqEnd clean s' t c)
    (hbuf : MqBuffers count.toNat s'.mq pend' inact' none) (hlaw : Deque.Run s'.log (s'.mq.contents pend'))
    (hsame : ∀ v, Waits Qs w v → pend' = pend ∧ inact' = inact) : MqInv clean count w s' Qs pend' inact' := by
  have hd := h.data ho
  have hidle : ∀ v, ¬ s'.Entering v ∧ ¬ s'.Submitting v := MqState.idle_out hph
  have hhand : s'.hand = none := by rw [MqState.hand, hph]
  have hold : ∀ v c, s'.calls v = some c → Waits Qs s'.mq.waitQueue v ∨ s'.Entering v →
      s.calls v = some c ∧ Waits Qs w v := by
    rintro v c hv (hw | hw)
    · have hve : v ≠ t := by
        rintro rfl
        exact htq.not_ready hw hr
      rw [hcalls v hve] at hv
      exact ⟨hv, hqueue ▸ hw⟩
    · exact absurd hw (hidle v).1
  refine ⟨?_, hqueue, by rw [hkq]; exact h.timeout, fun e he => (by rw [hph] at he; cases he), ⟨fun _ => .inl hph, fun hp => (by rw [hph] at hp; cases hp)⟩, fun v => ?_,
    fun _ => ?_⟩
  · rw [hph]
    exact htq
  · by_cases hv : v = t
    · subst hv
      exact .ended c hc hr (hidle v).1 (hidle v).2 hend
    · exact (h.threads v).congr (hthr v hv) (hcalls v hv) (hargs v hv) (hframe v hv) (by rw [hqueue, h.queue])
        (iff_of_false (hidle v).1 (hcut v).1) (iff_of_false (hidle v).2 ((hcut v).2 hv))
  · refine ⟨by rw [hhand]; exact hbuf, hlaw, fun v c hv hw hkind => ?_, fun v c hv hw hkind => ?_, fun hp => ?_⟩
    · obtain ⟨hv, hw⟩ := hold v c hv hw
      rw [(hsame v hw).1]
      exact ⟨(hd.receivers v c hv (.inl (h.queue.symm ▸ hw)) hkind).1, hhand⟩
    · obtain ⟨hv, hw⟩ := hold v c hv hw
      rw [(hsame v hw).2]
      exact hd.senders v c hv (.inl (h.queue.symm ▸ hw)) hkind
    · rw [hph] at hp
      cases hp

/-- **A call blocks**: its thread is on its way into the queue, a receiver's on an empty one, a sender's on a full one. -/
theorem MqInv.entered {e : Enq T W} (h : MqInv clean count w s Qs pend inact) (ho : s.opened = true)
    (hcut : ∀ v, ¬ s.Entering v ∧ (v ≠ t → ¬ s.Submitting v)) (hhand : s.hand = none) (hph : s'.phase = .entering e)
    (het : e.thread = t) (heq : e.queue = w) (htq : TqInv s'.kernel Qs (some e))
    (htimeout : (s'.kernel.tq w).timeoutStatus = mqTimeout) (hsync : s'.sync ≠ .satisfied) (hmq : s'.mq = s.mq)
    (hlog : s'.log = s.log) (hopen : s'.opened = s.opened) (hthr : ∀ v, v ≠ t → s'.kernel.thr v = s.kernel.thr v)
    (hcalls : ∀ v, v ≠ t → s'.calls v = s.calls v) (hargs : ∀ v, v ≠ t → s'.waits v = s.waits v)
    (hframe : ∀ v, v ≠ t → s'.frame v = s.frame v) (hc : s'.calls t = some c) (hblock : MqBlock clean s' t c)
    (hrecv : c.kind = .receive → pend = []) (hsend : c.kind ≠ .receive → inact = []) : MqInv clean count w s' Qs pend inact := by
  have hd := h.data ho
  have hpe : s'.phase.enq = some e := by rw [hph]; rfl
  have hhand' : s'.hand = none := by rw [MqState.hand, hph]
  have hent : ∀ v, s'.Entering v ↔ v = t := by
    intro v
    constructor
    · rintro ⟨e', he', rfl⟩
      rw [hpe] at he'
      cases he'
      exact het
    · rintro rfl
      exact ⟨e, hpe, het⟩
  have hnosub : ∀ v, ¬ s'.Submitting v := fun v ⟨hp, _⟩ => by rw [hph] at hp; cases hp
  have hold : ∀ v c', s'.calls v = some c' → Waits Qs s'.mq.waitQueue v ∨ s'.Entering v → v ≠ t →
      s.calls v = some c' ∧ (Waits Qs s.mq.waitQueue v ∨ s.Entering v) := by
    intro v c' hv hw hvt
    rw [hcalls v hvt] at hv
    rw [hmq] at hw
    exact ⟨hv, hw.imp id fun he => absurd ((hent v).1 he) hvt⟩
  refine ⟨by rw [hpe]; exact htq, by rw [hmq]; exact h.queue, htimeout, fun e' he' => ?_, ⟨fun he => ?_, fun hp => ?_⟩,
    fun v => ?_, fun _ => ?_⟩
  · rw [hpe] at he'
    cases he'
    exact ⟨heq, hsync⟩
  · rw [hopen, ho] at he
    cases he
  · rw [hph] at hp
    cases hp
  · by_cases hv : v = t
    · subst hv
      exact .inside c hc (.inr ((hent v).2 rfl)) (hnosub v) hblock
    · exact (h.threads v).congr (hthr v hv) (hcalls v hv) (hargs v hv) (hframe v hv) (by rw [hmq])
        (iff_of_false (fun he => hv ((hent v).1 he)) (hcut v).1) (iff_of_false (hnosub v) ((hcut v).2 hv))
  · refine ⟨?_, ?_, fun v c' hv hw hkind => ?_, fun v c' hv hw hkind => ?_, fun hp => ?_⟩
    · rw [hmq, hhand', ← hhand]
      exact hd.buffers
    · rw [hmq, hlog]
      exact hd.law
    · by_cases hvt : v = t
      · subst hvt
        rw [hc] at hv
        cases hv
        exact ⟨hrecv hkind, hhand'⟩
      · obtain ⟨hv, hw⟩ := hold v c' hv hw hvt
        exact ⟨(hd.receivers v c' hv hw hkind).1, hhand'⟩
    · by_cases hvt : v = t
      · subst hvt
        rw [hc] at hv
        cases hv
        exact hsend hkind
      · obtain ⟨hv, hw⟩ := hold v c' hv hw hvt
        exact hd.senders v c' hv hw hkind
    · rw [hph] at hp
      cases hp

/-! ## Sends -/

section Submit

variable {k' : Kernel T W} {u : T} {call : MqSend} {msg : M}

/-- `wait.cnt = n`. -/
def Lwp.setCnt (n : BitVec 32) (l : Lwp W) : Lwp W := { l with wait := { l.wait with cnt := n } }

theorem setCnt_sameBlock (n : BitVec 32) (l : Lwp W) : l.SameBlock (l.setCnt n) := ⟨⟨rfl, rfl, rfl⟩, rfl, rfl, id⟩

theorem MqState.submit_served {status : Option (BitVec 32)} (hsz : ¬ mqMsgSize > s.mq.maxMsgsize) (hn : s.mq.numPendingmsgs = 0)
    (hd : lwpThreadqueueDequeue { s.kernel with executing := t } s.mq.waitQueue = (k', some u)) (hut : u ≠ t)
    (hcu : s.calls u = some ⟨.receive, status, none⟩) (hargs : s.waits u = ⟨some u, .size u⟩) :
    s.submit t call msg = { s with
      kernel := k'.setThr u (Lwp.setCnt call.type)
      frame := Function.update (Function.update s.frame t msg) u msg
      frameSize := Function.update s.frameSize u mqMsgSize
      phase := .idle
      calls := Function.update (Function.update s.calls u (some ⟨.receive, status, some msg⟩)) t
        (some ⟨.send call msg, some mqSuccessful, some msg⟩)
      log := s.log ++ [.put call.jam msg] ++ [.take u msg] } := by
  simp only [MqState.submit, if_neg hsz, if_pos hn, hd, MqState.handover, hargs, MqState.accept, MqState.deliver,
    MqState.answer, MqState.setCall, Function.update_self, Function.update_of_ne hut, Function.update_of_ne hut.symm, hcu,
    Option.map_some]
  have hcalls : Function.update (Function.update (Function.update (Function.update s.calls t
      (some ⟨.send call msg, none, none⟩)) t (some ⟨.send call msg, none, some msg⟩)) u (some ⟨.receive, status, some msg⟩)) t
      (some ⟨.send call msg, some mqSuccessful, some msg⟩) = Function.update (Function.update s.calls u
      (some ⟨.receive, status, some msg⟩)) t (some ⟨.send call msg, some mqSuccessful, some msg⟩) := by
    funext v
    by_cases hv : v = t
    · subst hv; simp
    · by_cases hvu : v = u
      · subst hvu; simp [hv]
      · simp [hv, hvu]
  rw [hcalls]
  rfl

/-- A send that finds the queue empty and nobody blocked, or messages pending, goes on. -/
theorem MqState.submit_undecided (hsz : ¬ mqMsgSize > s.mq.maxMsgsize)
    (hd : s.mq.numPendingmsgs = 0 →
      lwpThreadqueueDequeue { s.kernel with executing := t } s.mq.waitQueue = ({ s.kernel with executing := t }, none)) :
    s.submit t call msg = { s with
      kernel := { s.kernel with executing := t }
      frame := Function.update s.frame t msg
      phase := .submitting
      calls := Function.update s.calls t (some ⟨.send call msg, none, none⟩) } := by
  by_cases hn : s.mq.numPendingmsgs = 0
  · simp only [MqState.submit, if_neg hsz, if_pos hn, hd hn]
  · simp only [MqState.submit, if_neg hsz, if_neg hn]

theorem MqInv.submit_served (h : MqInv clean count w s Qs pend inact) (ho : s.opened = true) (hph : s.phase = .idle)
    (hr : s.kernel.Ready t) (hc : s.calls t = none) (hpend : pend = []) (hpos : 0 < count)
    (htq : TqInv k' Qs' none) (hk : lwpThreadqueueDequeue { s.kernel with executing := t } w = (k', some u))
    (hw : Waits Qs w u) (hwaits : ∀ w' v, Waits Qs' w' v ↔ Waits Qs w' v ∧ v ≠ u) (hready : k'.Ready u)
    (hthr : k'.thr = (s.kernel.setThr u Lwp.takenOff).thr) (hkq : k'.tq = s.kernel.tq) :
    MqInv clean count w (s.submit t call msg) Qs' pend inact := by
  subst hpend
  have hd := h.data ho
  have hhand : s.hand = none := by rw [MqState.hand, hph]
  obtain ⟨status, hcu, hret, hargs⟩ := h.served_receiver hpos ho hhand hw
  have hut : u ≠ t := by
    rintro rfl
    exact h.tq.not_ready hw hr
  have hsz : ¬ mqMsgSize > s.mq.maxMsgsize := BitVec.not_lt.2 hd.buffers.size
  rw [MqState.submit_served hsz (hd.buffers.num_zero.2 rfl) (by rw [h.queue]; exact hk) hut hcu hargs]
  set s' : MqState T W M := { s with
      kernel := k'.setThr u (Lwp.setCnt call.type)
      frame := Function.update (Function.update s.frame t msg) u msg
      frameSize := Function.update s.frameSize u mqMsgSize
      phase := .idle
      calls := Function.update (Function.update s.calls u (some ⟨.receive, status, some msg⟩)) t
        (some ⟨.send call msg, some mqSuccessful, some msg⟩)
      log := s.log ++ [.put call.jam msg] ++ [.take u msg] } with hs'
  have hidle : ∀ v, ¬ s'.Entering v ∧ ¬ s'.Submitting v := MqState.idle_out rfl
  have hidle₀ : ∀ v, ¬ s.Entering v ∧ ¬ s.Submitting v := MqState.idle_out hph
  have hthr' : ∀ v, v ≠ u → s'.kernel.thr v = s.kernel.thr v := fun v hv => by
    rw [show s'.kernel = k'.setThr u (Lwp.setCnt call.type) from rfl, setThr_thr_ne _ _ _ hv, hthr, setThr_thr_ne _ _ _ hv]
  have hcalls : ∀ v, v ≠ u → v ≠ t → s'.calls v = s.calls v := fun v hv hv' =>
    (Function.update_of_ne hv' _ _).trans (Function.update_of_ne hv _ _)
  refine ⟨?_, h.queue, ?_, fun e he => (by cases he), ⟨fun _ => .inl rfl, fun hp => (by cases hp)⟩, fun v => ?_, fun _ => ?_⟩
  · exact htq.setThr (setCnt_sameBlock _ _)
  · rw [show (s'.kernel.tq w) = k'.tq w from rfl, hkq]
    exact h.timeout
  · by_cases hvt : v = t
    · subst hvt
      refine .ended _ (Function.update_self ..) ?_ (hidle v).1 (hidle v).2 (.accepted call msg)
      rw [Kernel.Ready, hthr' v hut.symm]
      exact hr
    · by_cases hvu : v = u
      · subst hvu
        refine .ended ⟨.receive, status, some msg⟩ ?_ ?_ (hidle v).1 (hidle v).2 (.received status msg ?_ ?_)
        · exact (Function.update_of_ne hvt _ _).trans (Function.update_self ..)
        · rw [Kernel.Ready, show s'.kernel = k'.setThr v (Lwp.setCnt call.type) from rfl, setThr_thr_self]
          exact hready
        · rw [MqState.retCode, show s'.kernel = k'.setThr v (Lwp.setCnt call.type) from rfl, setThr_thr_self, hthr,
            setThr_thr_self]
          exact hret
        · exact Function.update_self ..
      · refine (h.threads v).congr (hthr' v hvu) (hcalls v hvu hvt) rfl ?_ ?_ (iff_of_false (hidle v).1 (hidle₀ v).1)
          (iff_of_false (hidle v).2 (hidle₀ v).2)
        · exact (Function.update_of_ne hvu _ _).trans (Function.update_of_ne hvt _ _)
        · rw [show s'.mq = s.mq from rfl, hwaits, and_iff_left hvu]
  · have hold : ∀ v c, s'.calls v = some c → Waits Qs' s'.mq.waitQueue v ∨ s'.Entering v →
        s.calls v = some c ∧ (Waits Qs s.mq.waitQueue v ∨ s.Entering v) := by
      rintro v c hv (hx | hx)
      · obtain ⟨hx, hvu⟩ := (hwaits _ v).1 hx
        have hvt : v ≠ t := by
          rintro rfl
          exact h.tq.not_ready hx hr
        rw [hcalls v hvu hvt] at hv
        exact ⟨hv, .inl hx⟩
      · exact absurd hx (hidle v).1
    refine ⟨?_, ?_, fun v c hv hx hkind => ?_, fun v c hv hx hkind => ?_, fun hp => (by cases hp)⟩
    · have := hd.buffers
      rw [hhand] at this
      exact this
    · -- the message is put into an empty queue and taken out of it
      have hlaw := hd.law
      have hput := hlaw.put call.jam msg
      have hone : (if call.jam then msg :: s.mq.contents [] else s.mq.contents [] ++ [msg]) = [msg] := by
        cases call.jam <;> rfl
      rw [hone] at hput
      exact hput.take u
    · obtain ⟨hv, hx⟩ := hold v c hv hx
      exact ⟨rfl, rfl⟩
    · obtain ⟨hv, hx⟩ := hold v c hv hx
      exact hd.senders v c hv hx hkind

theorem MqInv.submit (h : MqInv clean count w s Qs pend inact) (ho : s.opened = true) (hph : s.phase = .idle)
    (hr : s.kernel.Ready t) (hc : s.calls t = none) (hpos : 0 < count) :
    ∃ Qs', MqInv clean count w (s.submit t call msg) Qs' pend inact := by
  have hd := h.data ho
  have hnone : s.phase.enq = none := by rw [hph]; rfl
  have hhand : s.hand = none := by rw [MqState.hand, hph]
  have htq₀ : TqInv { s.kernel with executing := t } Qs none := by
    have h1 := h.tq
    rw [hnone] at h1
    exact h1.switch t
  have hsz : ¬ mqMsgSize > s.mq.maxMsgsize := BitVec.not_lt.2 hd.buffers.size
  obtain ⟨hout, hent, hsub⟩ := h.outside hc
  -- the undecided send: the acting thread is the one that submits
  have hgo : (pend = [] → ∀ v, ¬ Waits Qs w v) → (s.mq.numPendingmsgs = 0 →
      lwpThreadqueueDequeue { s.kernel with executing := t } s.mq.waitQueue = ({ s.kernel with executing := t }, none)) →
      MqInv clean count w (s.submit t call msg) Qs pend inact := by
    intro hask hdeq
    rw [MqState.submit_undecided hsz hdeq]
    set s' : MqState T W M := { s with
      kernel := { s.kernel with executing := t }
      frame := Function.update s.frame t msg
      phase := .submitting
      calls := Function.update s.calls t (some ⟨.send call msg, none, none⟩) } with hs'
    have hidle₀ : ∀ v, ¬ s.Entering v ∧ ¬ s.Submitting v := MqState.idle_out hph
    have hnoent : ∀ v, ¬ s'.Entering v := fun v ⟨e, he, _⟩ => by cases he
    have hsub' : ∀ v, v ≠ t → ¬ s'.Submitting v := fun v hv ⟨_, he⟩ => hv he.symm
    have hcalls : ∀ v, v ≠ t → s'.calls v = s.calls v := fun v hv => Function.update_of_ne hv ..
    have hold : ∀ v c, s'.calls v = some c → Waits Qs s'.mq.waitQueue v ∨ s'.Entering v →
        s.calls v = some c ∧ (Waits Qs s.mq.waitQueue v ∨ s.Entering v) := by
      rintro v c hv (hx | hx)
      · have hvt : v ≠ t := by
          rintro rfl
          exact hout hx
        rw [hcalls v hvt] at hv
        exact ⟨hv, .inl hx⟩
      · exact absurd hx (hnoent v)
    refine ⟨htq₀, h.queue, h.timeout, fun e he => (by cases he), ⟨fun he => (by rw [ho] at he; cases he), fun hp => (by cases hp)⟩, fun v => ?_, fun _ => ?_⟩
    · by_cases hv : v = t
      · subst hv
        exact .running call msg (Function.update_self ..) ⟨rfl, rfl⟩ hr (Function.update_self ..)
      · exact (h.threads v).congr rfl (hcalls v hv) rfl (Function.update_of_ne hv ..) Iff.rfl
          (iff_of_false (hnoent v) (hidle₀ v).1) (iff_of_false (hsub' v hv) (hidle₀ v).2)
    · refine ⟨?_, hd.law, fun v c hv hx hkind => ?_, fun v c hv hx hkind => ?_, fun _ hp v => ?_⟩
      · have := hd.buffers
        rw [hhand] at this
        exact this
      · obtain ⟨hv, hx⟩ := hold v c hv hx
        exact ⟨(hd.receivers v c hv hx hkind).1, rfl⟩
      · obtain ⟨hv, hx⟩ := hold v c hv hx
        exact hd.senders v c hv hx hkind
      · rw [show s'.mq.waitQueue = w from h.queue]
        exact hask hp v
  by_cases hp : pend = []
  · obtain ⟨Qs', htq', hdq⟩ := htq₀.dequeue w
    cases hret : lwpThreadqueueDequeue { s.kernel with executing := t } w with
    | mk k' o =>
      rw [hret] at htq' hdq
      cases hdq with
      | took u h1 h2 h3 h4 h5 => exact ⟨Qs', h.submit_served ho hph hr hc hp hpos htq' hret h1 h2 h3 h4 h5⟩
      | early e h1 _ _ _ _ _ => cases h1
      | nobody h1 _ _ h4 =>
        refine ⟨Qs, hgo (fun _ => h1) fun _ => ?_⟩
        simp only at h4
        rw [h.queue, hret, h4]
  · exact ⟨Qs, hgo (fun he => absurd he hp) fun h0 => absurd (hd.buffers.num_zero.1 h0) hp⟩

end Submit

theorem MqInv.submitter (h : MqInv clean count w s Qs pend inact) (hph : s.phase = .submitting) :
    ∃ send msg, s.calls s.kernel.executing = some ⟨.send send msg, none, none⟩ ∧ s.kernel.Ready s.kernel.executing ∧
      s.frame s.kernel.executing = msg := by
  have hsub : s.Submitting s.kernel.executing := ⟨hph, rfl⟩
  cases h.threads s.kernel.executing with
  | outside _ _ _ h4 => exact absurd hsub h4
  | running send msg h1 _ h3 h4 => exact ⟨send, msg, h1, h3, h4⟩
  | inside _ _ _ h3 _ => exact absurd hsub h3
  | ended _ _ _ _ h4 _ => exact absurd hsub h4

section Deposit

variable {call : MqSend} {msg : M} {exec : T}

theorem MqState.deposit_put {mem : Mem MqList Nat} {b : Nat} {status : Option (BitVec 32)} {served : Option M}
    (hx : s.kernel.executing = exec) (hlt : s.mq.numPendingmsgs < s.mq.maxPendingmsgs)
    (hget : lwpQueueGetI s.mq.mem .inactive = (mem, .node b)) (hc : s.calls exec = some ⟨.send call msg, status, served⟩) :
    s.deposit call = { s with
      mq := lwpmqMsgInsert { s.mq with mem := mem, msgs := Function.update s.mq.msgs b ⟨call.type, mqMsgSize, s.frame exec⟩ } b
        call.type
      phase := .idle
      calls := Function.update s.calls exec (some ⟨.send call msg, some mqSuccessful, some msg⟩)
      log := s.log ++ [.put call.jam msg] } := by
  subst hx
  simp only [MqState.deposit, if_pos hlt, hget, MqState.accept, hc, MqState.answer, MqState.setCall, Function.update_self,
    Option.map_some, Function.update_idem]

theorem MqState.deposit_refused (hx : s.kernel.executing = exec) (hlt : ¬ s.mq.numPendingmsgs < s.mq.maxPendingmsgs)
    (hws : call.waitStatus ≠ 0) (hc : s.calls exec = some ⟨.send call msg, none, none⟩) :
    s.deposit call = { s with
      phase := .idle, calls := Function.update s.calls exec (some ⟨.send call msg, some call.waitStatus, none⟩) } := by
  subst hx
  simp only [MqState.deposit, if_neg hlt, if_pos hws, MqState.answer, MqState.setCall, hc, Option.map_some]

/-- What a sender that blocks leaves in its control block. -/
def Lwp.sendsTo (w : W) (type : BitVec 32) (l : Lwp W) : Lwp W :=
  { l with wait := { l.wait with queue := some w, cnt := type } }

theorem MqState.deposit_blocks (hx : s.kernel.executing = exec) (hlt : ¬ s.mq.numPendingmsgs < s.mq.maxPendingmsgs)
    (hws : call.waitStatus = 0) (hc : s.calls exec = some ⟨.send call msg, none, none⟩) :
    s.deposit call = { s with
      kernel := (lwpThreadqueueCsenter s.kernel s.mq.waitQueue).setThr exec (Lwp.sendsTo s.mq.waitQueue call.type)
      waits := Function.update s.waits exec ⟨some exec, .word mqMsgSize⟩
      phase := .entering ⟨exec, s.mq.waitQueue, call.flags.timeout, .setstate⟩
      calls := Function.update s.calls exec (some ⟨.send call msg, some mqUnsatisfiedWait, none⟩) } := by
  subst hx
  simp only [MqState.deposit, if_neg hlt, hws, ne_eq, not_true_eq_false, if_false, MqState.answer, MqState.setCall, hc,
    Option.map_some]
  rfl

/-- No call is refused with the status of success, or with the one that says that it blocked. -/
theorem MqSend.waitStatus_ne (call : MqSend) : call.waitStatus ≠ mqUnsatisfiedWait := by
  unfold MqSend.waitStatus
  cases call.flags with
  | block => decide
  | noblock => decide
  | timed due => cases due <;> decide

theorem MqInv.deposit (h : MqInv clean count w s Qs pend inact) (hph : s.phase = .submitting)
    (hx : s.kernel.executing = exec) (hc : s.calls exec = some ⟨.send call msg, none, none⟩) (hr : s.kernel.Ready exec)
    (hf : s.frame exec = msg)
    (hclean : clean → ¬ s.mq.numPendingmsgs < s.mq.maxPendingmsgs → call.waitStatus = 0 → s.retCode exec = mqSuccessful) :
    ∃ pend' inact', MqInv clean count w (s.deposit call) Qs pend' inact' := by
  have ho : s.opened = true := by
    by_contra hno
    rcases h.shut.1 (by simpa using hno) with he | he
    · rw [hph] at he; cases he
    · rw [hph] at he; cases he
  have hd := h.data ho
  have hnone : s.phase.enq = none := by rw [hph]; rfl
  have hhand : s.hand = none := by rw [MqState.hand, hph]
  have hbuf := hd.buffers
  rw [hhand] at hbuf
  have htq := h.tq
  rw [hnone] at htq
  have hnoent : ∀ v, ¬ s.Entering v := fun v ⟨e, he, _⟩ => by rw [hnone] at he; cases he
  have hnosub : ∀ v, v ≠ exec → ¬ s.Submitting v := fun v hv ⟨_, he⟩ => hv (he.symm.trans hx)
  have hcut : ∀ v, ¬ s.Entering v ∧ (v ≠ exec → ¬ s.Submitting v) := fun v => ⟨hnoent v, hnosub v⟩
  by_cases hlt : s.mq.numPendingmsgs < s.mq.maxPendingmsgs
  · -- a buffer is left, so nobody is blocked
    obtain ⟨b, inact', rfl⟩ : ∃ b inact', inact = b :: inact' := List.exists_cons_of_ne_nil (hbuf.num_lt.1 hlt)
    have hnobody : ∀ v, ¬ Waits Qs w v := by
      intro v hw
      obtain ⟨c, hcv, -, -⟩ := h.waiter hw
      rw [← h.queue] at hw
      by_cases hkind : c.kind = .receive
      · exact hd.asked hph (hd.receivers v c hcv (.inl hw) hkind).1 v hw
      · have := hd.senders v c hcv (.inl hw) hkind
        cases this
    obtain ⟨mem, hget, hbuf'⟩ := hbuf.allocate
    have hb := (hbuf'.out b rfl).1
    rw [MqState.deposit_put hx hlt hget hc]
    refine ⟨putBuffer call.jam b pend, inact', h.concluded ho hcut rfl htq rfl ?_ (fun _ _ => rfl)
      (fun v hv => Function.update_of_ne hv ..) (fun _ _ => rfl) (fun _ _ => rfl) hr (Function.update_self ..)
      (.accepted call msg) ((hbuf'.setMsgs _).insert call count.isLt) ?_ (fun v hw => absurd hw (hnobody v))⟩
    · rw [← h.queue]
      unfold lwpmqMsgInsert
      split
      · rfl
      · split <;> rfl
    · rw [contents_insert s.mq hb, hf]
      exact hd.law.put call.jam msg
  · have hfull : inact = [] := by
      by_contra hne
      exact hlt (hbuf.num_lt.2 hne)
    by_cases hws : call.waitStatus = 0
    · -- the queue: the thread leaves its arguments, and enters
      rw [MqState.deposit_blocks hx hlt hws hc]
      refine ⟨pend, inact, ?_⟩
      set s' : MqState T W M := { s with
        kernel := (lwpThreadqueueCsenter s.kernel s.mq.waitQueue).setThr exec (Lwp.sendsTo s.mq.waitQueue call.type)
        waits := Function.update s.waits exec ⟨some exec, .word mqMsgSize⟩
        phase := .entering ⟨exec, s.mq.waitQueue, call.flags.timeout, .setstate⟩
        calls := Function.update s.calls exec (some ⟨.send call msg, some mqUnsatisfiedWait, none⟩) } with hs'
      have hthr : ∀ v, v ≠ exec → s'.kernel.thr v = s.kernel.thr v := fun v hv => by
        show (Kernel.setThr _ exec (Lwp.sendsTo s.mq.waitQueue call.type)).thr v = _
        rw [setThr_thr_ne _ _ _ hv]
        rfl
      have hcalls : ∀ v, v ≠ exec → s'.calls v = s.calls v := fun v hv => Function.update_of_ne hv ..
      refine h.entered ho hcut hhand rfl rfl h.queue (htq.enter _ _ hx hr ⟨rfl, rfl, rfl⟩ rfl rfl rfl) ?_ ?_ rfl rfl rfl hthr hcalls
        (fun v hv => Function.update_of_ne hv ..) (fun _ _ => rfl) (Function.update_self ..) (.sender call msg ?_ ?_ hf ?_)
        (fun hk => (by cases hk)) (fun _ => hfull)
      · have ht := h.timeout
        simpa [hs', h.queue, lwpThreadqueueCsenter, Kernel.setTq] using ht
      · simp [MqState.sync, hs', lwpThreadqueueCsenter, Kernel.setTq]
      · intro hcl
        rw [MqState.retCode, show s'.kernel.thr exec = _ from setThr_thr_self _ _ _]
        exact hclean hcl hlt hws
      · exact Function.update_self ..
      · rw [show s'.kernel.thr exec = _ from setThr_thr_self _ _ _]
        rfl
    · rw [MqState.deposit_refused hx hlt hws hc]
      exact ⟨pend, inact, h.concluded ho hcut rfl htq rfl h.queue (fun _ _ => rfl) (fun v hv => Function.update_of_ne hv ..)
        (fun _ _ => rfl) (fun _ _ => rfl) hr (Function.update_self ..) (.refused call msg _ hws call.waitStatus_ne) hbuf hd.law
        (fun _ _ => ⟨rfl, rfl⟩)⟩

end Deposit

/-! ## Receives -/

section Seize

variable {flags : MqFlags}

/-- What a receiver that blocks leaves in its control block. -/
def Lwp.waitsOn (w : W) (l : Lwp W) : Lwp W := { l with wait := { l.wait with queue := some w } }

/-- The control blocks as `__lwpmq_seize` starts. -/
def seizing (k : Kernel T W) (t : T) : Kernel T W := ({ k with executing := t } : Kernel T W).setRetCode t mqSuccessful

variable {b : Nat}

theorem MqState.seize_takes {mem : Mem MqList Nat} (hn : s.mq.numPendingmsgs ≠ 0)
    (hget : lwpQueueGetI s.mq.mem .pending = (mem, .node b)) : s.seize t flags = { s with
      mq := { s.mq with numPendingmsgs := s.mq.numPendingmsgs - 1, mem := mem }
      frameSize := Function.update s.frameSize t (s.mq.msgs b).size
      kernel := (seizing s.kernel t).setThr t (Lwp.setCnt (s.mq.msgs b).prio)
      frame := Function.update s.frame t (s.mq.msgs b).buffer
      phase := .refilling b
      calls := Function.update s.calls t (some ⟨.receive, none, some (s.mq.msgs b).buffer⟩)
      log := s.log ++ [.take t (s.mq.msgs b).buffer] } := by
  simp only [MqState.seize, if_pos hn, hget, MqState.deliver, MqState.setCall, Function.update_self, Option.map_some,
    Function.update_idem]
  rfl

theorem MqState.seize_nothing (hn : s.mq.numPendingmsgs = 0) (hst : mqReceiveStatus flags ≠ 0) :
    s.seize t flags = { s with
      kernel := (seizing s.kernel t).setRetCode t (mqReceiveStatus flags)
      calls := Function.update s.calls t (some ⟨.receive, none, none⟩) } := by
  simp only [MqState.seize, hn, ne_eq, not_true_eq_false, if_false, if_pos hst]
  rfl

theorem MqState.seize_blocks (hn : s.mq.numPendingmsgs = 0) (hst : mqReceiveStatus flags = 0) :
    s.seize t flags = { s with
      kernel := (lwpThreadqueueCsenter (seizing s.kernel t) s.mq.waitQueue).setThr t (Lwp.waitsOn s.mq.waitQueue)
      waits := Function.update s.waits t ⟨some t, .size t⟩
      phase := .entering ⟨t, s.mq.waitQueue, flags.timeout, .setstate⟩
      calls := Function.update s.calls t (some ⟨.receive, none, none⟩) } := by
  simp only [MqState.seize, hn, hst, ne_eq, not_true_eq_false, if_false]
  rfl

theorem seizing_thr_ne (k : Kernel T W) {t v : T} (hv : v ≠ t) : (seizing k t).thr v = k.thr v := by
  rw [seizing, Kernel.setRetCode, setThr_thr_ne _ _ _ hv]

theorem seizing_retCode (k : Kernel T W) (t : T) : ((seizing k t).thr t).wait.retCode = mqSuccessful := by
  rw [seizing, Kernel.setRetCode, setThr_thr_self]

theorem seizing_ready {k : Kernel T W} {t : T} (hr : k.Ready t) : (seizing k t).Ready t := by
  rw [Kernel.Ready, seizing, Kernel.setRetCode, setThr_thr_self]
  exact hr

theorem MqInv.seize (h : MqInv clean count w s Qs pend inact) (ho : s.opened = true) (hph : s.phase = .idle) (hr : s.kernel.Ready t) :
    ∃ pend', MqInv clean count w (s.seize t flags) Qs pend' inact := by
  have hd := h.data ho
  have hnone : s.phase.enq = none := by rw [hph]; rfl
  have hhand : s.hand = none := by rw [MqState.hand, hph]
  have hbuf := hd.buffers
  rw [hhand] at hbuf
  have htq := h.tq
  rw [hnone] at htq
  have htq₁ : TqInv (seizing s.kernel t) Qs none := (htq.switch t).setRetCode t mqSuccessful
  have hidle : ∀ v, ¬ s.Entering v ∧ ¬ s.Submitting v := MqState.idle_out hph
  have hcut : ∀ v, ¬ s.Entering v ∧ (v ≠ t → ¬ s.Submitting v) := fun v => ⟨(hidle v).1, fun _ => (hidle v).2⟩
  by_cases hn : s.mq.numPendingmsgs = 0
  · have hp := hbuf.num_zero.1 hn
    by_cases hst : mqReceiveStatus flags = 0
    · rw [MqState.seize_blocks hn hst]
      refine ⟨pend, ?_⟩
      set s' : MqState T W M := { s with
        kernel := (lwpThreadqueueCsenter (seizing s.kernel t) s.mq.waitQueue).setThr t (Lwp.waitsOn s.mq.waitQueue)
        waits := Function.update s.waits t ⟨some t, .size t⟩
        phase := .entering ⟨t, s.mq.waitQueue, flags.timeout, .setstate⟩
        calls := Function.update s.calls t (some ⟨.receive, none, none⟩) } with hs'
      have hthr : ∀ v, v ≠ t → s'.kernel.thr v = s.kernel.thr v := fun v hv => by
        show (Kernel.setThr _ t (Lwp.waitsOn s.mq.waitQueue)).thr v = _
        rw [setThr_thr_ne _ _ _ hv]
        exact seizing_thr_ne _ hv
      refine h.entered ho hcut hhand rfl rfl h.queue
        (htq₁.enter _ _ rfl (seizing_ready hr) ⟨rfl, rfl, rfl⟩ rfl rfl rfl) ?_ ?_ rfl rfl rfl hthr
        (fun v hv => Function.update_of_ne hv ..) (fun v hv => Function.update_of_ne hv ..) (fun _ _ => rfl)
        (Function.update_self ..) (.receiver none ?_ ?_) (fun _ => hp) (fun hk => absurd rfl hk)
      · have ht := h.timeout
        simpa [hs', h.queue, lwpThreadqueueCsenter, Kernel.setTq, seizing, Kernel.setRetCode] using ht
      · simp [MqState.sync, hs', lwpThreadqueueCsenter, Kernel.setTq]
      · rw [MqState.retCode, show s'.kernel.thr t = _ from setThr_thr_self _ _ _]
        exact seizing_retCode _ _
      · exact Function.update_self ..
    · rw [MqState.seize_nothing hn hst]
      refine ⟨pend, h.concluded ho hcut hph (htq₁.setRetCode t (mqReceiveStatus flags)) rfl h.queue (fun v hv => ?_)
        (fun v hv => Function.update_of_ne hv ..) (fun _ _ => rfl) (fun _ _ => rfl) ?_ (Function.update_self ..)
        (.nothing none ?_) hbuf hd.law (fun _ _ => ⟨rfl, rfl⟩)⟩
      · rw [Kernel.setRetCode, setThr_thr_ne _ _ _ hv]
        exact seizing_thr_ne _ hv
      · rw [Kernel.Ready, Kernel.setRetCode, setThr_thr_self]
        exact seizing_ready hr
      · rw [MqState.retCode, Kernel.setRetCode, setThr_thr_self]
        exact hst
  · -- the first message is taken; a receiver that waits would have it already
    obtain ⟨b, pend', rfl⟩ : ∃ b pend', pend = b :: pend' := by
      refine List.exists_cons_of_ne_nil fun hp => hn ?_
      exact hbuf.num_zero.2 hp
    obtain ⟨mem, hget, hbuf'⟩ := hbuf.take
    rw [MqState.seize_takes hn hget]
    refine ⟨pend', ?_⟩
    set s' : MqState T W M := { s with
      mq := { s.mq with numPendingmsgs := s.mq.numPendingmsgs - 1, mem := mem }
      frameSize := Function.update s.frameSize t (s.mq.msgs b).size
      kernel := (seizing s.kernel t).setThr t (Lwp.setCnt (s.mq.msgs b).prio)
      frame := Function.update s.frame t (s.mq.msgs b).buffer
      phase := .refilling b
      calls := Function.update s.calls t (some ⟨.receive, none, some (s.mq.msgs b).buffer⟩)
      log := s.log ++ [.take t (s.mq.msgs b).buffer] } with hs'
    have hthr : ∀ v, v ≠ t → s'.kernel.thr v = s.kernel.thr v := fun v hv => by
      show (Kernel.setThr _ t (Lwp.setCnt (s.mq.msgs b).prio)).thr v = _
      rw [setThr_thr_ne _ _ _ hv]
      exact seizing_thr_ne _ hv
    have hcalls : ∀ v, v ≠ t → s'.calls v = s.calls v := fun v hv => Function.update_of_ne hv ..
    have hnoent : ∀ v, ¬ s'.Entering v := fun v hen => hen.elim fun e he => by cases he.1
    have hnosub : ∀ v, ¬ s'.Submitting v := fun v hsub => by cases hsub.1
    have hold : ∀ v c, s'.calls v = some c → Waits Qs s'.mq.waitQueue v ∨ s'.Entering v →
        s.calls v = some c ∧ (Waits Qs s.mq.waitQueue v ∨ s.Entering v) := by
      rintro v c hv (hx | hx)
      · have hvt : v ≠ t := by
          rintro rfl
          exact h.tq.not_ready hx hr
        rw [hcalls v hvt] at hv
        exact ⟨hv, .inl hx⟩
      · exact absurd hx (hnoent v)
    refine ⟨htq₁.setThr (setCnt_sameBlock _ _), h.queue, h.timeout, fun e he => (by cases he),
      ⟨fun he => (by rw [show s'.opened = s.opened from rfl, ho] at he; cases he), fun hp => (by cases hp)⟩, fun v => ?_, fun _ => ?_⟩
    · by_cases hv : v = t
      · subst hv
        refine .ended _ (Function.update_self ..) ?_ (hnoent v) (hnosub v) (.received none _ ?_ (Function.update_self ..))
        · rw [Kernel.Ready, show s'.kernel.thr v = _ from setThr_thr_self _ _ _]
          exact seizing_ready hr
        · rw [MqState.retCode, show s'.kernel.thr v = _ from setThr_thr_self _ _ _]
          exact seizing_retCode _ _
      · exact (h.threads v).congr (hthr v hv) (hcalls v hv) rfl (Function.update_of_ne hv ..) Iff.rfl
          (iff_of_false (hnoent v) (hidle v).1) (iff_of_false (hnosub v) (hidle v).2)
    · refine ⟨hbuf', ?_, fun v c hv hx hkind => ?_, fun v c hv hx hkind => ?_, fun hp => (by cases hp)⟩
      · exact Deque.Run.take hd.law t
      · obtain ⟨hv, hx⟩ := hold v c hv hx
        cases (hd.receivers v c hv hx hkind).1
      · obtain ⟨hv, hx⟩ := hold v c hv hx
        exact hd.senders v c hv hx hkind

theorem MqState.refill_free {k' : Kernel T W} (hdq : lwpThreadqueueDequeue s.kernel s.mq.waitQueue = (k', none)) :
    s.refill b = { s with kernel := k', mq := { s.mq with mem := lwpQueueAppendI s.mq.mem .inactive b }, phase := .idle } := by
  simp only [MqState.refill, hdq]

theorem MqState.refill_put {k' : Kernel T W} {u : T} {call : MqSend} {msg : M} {status : Option (BitVec 32)}
    (hdq : lwpThreadqueueDequeue s.kernel s.mq.waitQueue = (k', some u)) (hcu : s.calls u = some ⟨.send call msg, status, none⟩)
    (hargs : s.waits u = ⟨some u, .word mqMsgSize⟩) (hf : s.frame u = msg) (hcnt : (k'.thr u).wait.cnt = call.type) :
    s.refill b = { s with
      kernel := k'
      mq := lwpmqMsgInsert { s.mq with msgs := Function.update s.mq.msgs b ⟨call.type, mqMsgSize, msg⟩ } b call.type
      phase := .idle
      calls := Function.update s.calls u (some ⟨.send call msg, status, some msg⟩)
      log := s.log ++ [.put call.jam msg] } := by
  simp only [MqState.refill, hdq, hargs, hf, hcnt, MqState.accept, hcu, MqState.setCall, Option.map_some, MqArg.toWord]

theorem lwpmqMsgInsert_waitQueue (mq : MqCntrl W M) (b : Nat) (type : BitVec 32) : (lwpmqMsgInsert mq b type).waitQueue = mq.waitQueue := by
  unfold lwpmqMsgInsert
  split
  · rfl
  · split <;> rfl

theorem MqInv.refill (h : MqInv clean count w s Qs pend inact) (hph : s.phase = .refilling b) :
    ∃ Qs' pend' inact', MqInv clean count w (s.refill b) Qs' pend' inact' := by
  have ho : s.opened = true := by
    by_contra hno
    rcases h.shut.1 (by simpa using hno) with he | he
    · rw [hph] at he; cases he
    · rw [hph] at he; cases he
  have hd := h.data ho
  have hhand : s.hand = some b := by rw [MqState.hand, hph]
  have hbuf := hd.buffers
  rw [hhand] at hbuf
  have hnone : s.phase.enq = none := by rw [hph]; rfl
  have hnoent : ∀ v, ¬ s.Entering v := fun v ⟨e, he, _⟩ => by rw [hnone] at he; cases he
  have hnosub : ∀ v, ¬ s.Submitting v := fun v ⟨he, _⟩ => by rw [hph] at he; cases he
  have htq := h.tq
  rw [hnone] at htq
  obtain ⟨Qs', htq', hdq⟩ := htq.dequeue w
  cases hret : lwpThreadqueueDequeue s.kernel w with
  | mk k' o =>
    rw [hret] at htq' hdq
    rw [← h.queue] at hret
    cases hdq with
    | early e h1 _ _ _ _ _ => cases h1
    | nobody h1 _ h3 h4 =>
      subst h3
      simp only at h4
      subst h4
      rw [MqState.refill_free hret]
      set s' : MqState T W M := { s with
        kernel := s.kernel, mq := { s.mq with mem := lwpQueueAppendI s.mq.mem .inactive b }, phase := .idle } with hs'
      have hidle : ∀ v, ¬ s'.Entering v ∧ ¬ s'.Submitting v := MqState.idle_out rfl
      have hno : ∀ v, ¬ (Waits Qs' s'.mq.waitQueue v ∨ s'.Entering v) := by
        rintro v (hx | hx)
        · rw [show s'.mq.waitQueue = w from h.queue] at hx
          exact h1 v hx
        · exact (hidle v).1 hx
      refine ⟨Qs', pend, inact ++ [b], htq', h.queue, h.timeout, fun e he => (by cases he), ⟨fun _ => .inl rfl, fun hp => (by cases hp)⟩, fun v => ?_,
        fun _ => ?_⟩
      · exact (h.threads v).congr rfl rfl rfl rfl Iff.rfl (iff_of_false (hidle v).1 (hnoent v))
          (iff_of_false (hidle v).2 (hnosub v))
      · exact ⟨hbuf.free, hd.law, fun v c _ hx _ => absurd hx (hno v), fun v c _ hx _ => absurd hx (hno v),
          fun hp => (by cases hp)⟩
    | took u h1 h2 h3 h4 h5 =>
      obtain ⟨call, msg, hcu, hclean, hargs, hf, hcnt, hfull⟩ := h.served_sender ho hhand h1
      simp only at h4 h5 h3
      have hcnt' : (k'.thr u).wait.cnt = call.type := by
        rw [h4, setThr_thr_self]
        exact hcnt
      rw [MqState.refill_put hret hcu hargs hf hcnt']
      set s' : MqState T W M := { s with
        kernel := k'
        mq := lwpmqMsgInsert { s.mq with msgs := Function.update s.mq.msgs b ⟨call.type, mqMsgSize, msg⟩ } b call.type
        phase := .idle
        calls := Function.update s.calls u (some ⟨.send call msg, some mqUnsatisfiedWait, some msg⟩)
        log := s.log ++ [.put call.jam msg] } with hs'
      have hidle : ∀ v, ¬ s'.Entering v ∧ ¬ s'.Submitting v := MqState.idle_out rfl
      have hqueue : s'.mq.waitQueue = w := (lwpmqMsgInsert_waitQueue _ _ _).trans h.queue
      have hcalls : ∀ v, v ≠ u → s'.calls v = s.calls v := fun v hv => Function.update_of_ne hv ..
      have hthr : ∀ v, v ≠ u → s'.kernel.thr v = s.kernel.thr v := fun v hv => by
        rw [show s'.kernel = k' from rfl, h4, setThr_thr_ne _ _ _ hv]
      have hb := (hbuf.out b rfl).1
      refine ⟨Qs', putBuffer call.jam b pend, inact, htq', hqueue, ?_, fun e he => (by cases he), ⟨fun _ => .inl rfl, fun hp => (by cases hp)⟩, fun v => ?_,
        fun _ => ?_⟩
      · rw [show s'.kernel = k' from rfl, h5]
        exact h.timeout
      · by_cases hv : v = u
        · subst hv
          refine .ended _ (Function.update_self ..) h3 (hidle v).1 (hidle v).2 (.late call msg fun hcl => ?_)
          rw [MqState.retCode, show s'.kernel = k' from rfl, h4, setThr_thr_self]
          exact hclean hcl
        · refine (h.threads v).congr (hthr v hv) (hcalls v hv) rfl rfl ?_ (iff_of_false (hidle v).1 (hnoent v))
            (iff_of_false (hidle v).2 (hnosub v))
          rw [hqueue, h.queue, h2, and_iff_left hv]
      · refine ⟨(hbuf.setMsgs _).insert call count.isLt, ?_, fun v c hv hx hkind => ?_, fun v c hv hx hkind => hfull,
          fun hp => (by cases hp)⟩
        · have hc := contents_insert s.mq hb call mqMsgSize msg s.mq.mem
          show Deque.Run (s.log ++ [.put call.jam msg]) (MqCntrl.contents _ _)
          rw [hc]
          exact hd.law.put call.jam msg
        · rcases hx with hx | hx
          · rw [hqueue] at hx
            obtain ⟨hx, hvu⟩ := (h2 w v).1 hx
            rw [hcalls v hvu] at hv
            have := (hd.receivers v c hv (.inl (h.queue.symm ▸ hx)) hkind).2
            rw [hhand] at this
            cases this
          · exact absurd hx (hidle v).1

end Seize

/-! ## The way into the queue -/

theorem MqInv.enqueue (h : MqInv clean count w s Qs pend inact) {e : Enq T W} (hph : s.phase = .entering e) :
    ∃ Qs', MqInv clean count w (mqNext s .enqueue) Qs' pend inact := by
  have henq : s.phase.enq = some e := by rw [hph]; rfl
  obtain ⟨heq, hsat⟩ := h.phase e henq
  have htq := h.tq
  rw [henq] at htq
  obtain ⟨Qs', htq', hfr, hout⟩ := htq.enqNext
  have hnext : mqNext s .enqueue =
      { s with kernel := (enqNext s.kernel e).1, phase := ((enqNext s.kernel e).2.map MqPhase.entering).getD .idle } := by
    simp only [mqNext, hph]
  rw [hnext]
  set k' := (enqNext s.kernel e).1 with hk'
  set o := (enqNext s.kernel e).2 with ho
  clear_value k' o
  set s' : MqState T W M := { s with kernel := k', phase := (o.map MqPhase.entering).getD .idle } with hs'
  have hpe : s'.phase.enq = o := by cases o <;> rfl
  have hhand' : s'.hand = none := by cases o <;> rfl
  have hhand : s.hand = none := by rw [MqState.hand, hph]
  have hnosub' : ∀ v, ¬ s'.Submitting v := by
    rintro v ⟨hp, -⟩
    cases o <;> cases hp
  have hnosub : ∀ v, ¬ s.Submitting v := fun v ⟨hp, _⟩ => by rw [hph] at hp; cases hp
  have hsync : (s.kernel.tq e.queue).syncState ≠ .satisfied := by
    rw [heq, ← h.queue]
    exact hsat
  obtain ⟨c, hcall, hblock⟩ : ∃ c, s.calls e.thread = some c ∧ MqBlock clean s e.thread c := by
    have hin : s.Entering e.thread := ⟨e, henq, rfl⟩
    cases h.threads e.thread with
    | outside _ _ h3 _ => exact absurd hin h3
    | running _ _ _ h2 _ _ => exact absurd h2 (hnosub _)
    | inside c h1 _ _ h4 => exact ⟨c, h1, h4⟩
    | ended _ _ _ h3 _ _ => exact absurd hin h3
  have hnoent : ∀ v, v ≠ e.thread → ¬ s.Entering v := by
    rintro v hv ⟨e', he', rfl⟩
    rw [henq] at he'
    cases he'
    exact hv rfl
  have hnoent' : ∀ v, v ≠ e.thread → ¬ s'.Entering v := by
    rintro v hv ⟨e', he', rfl⟩
    rw [hpe] at he'
    subst he'
    cases hout with
    | going _ h1 _ _ _ _ => exact hv h1
  have hn : o = none → ¬ s'.Entering e.thread := by
    rintro rfl ⟨e', he', -⟩
    cases he'
  have hwaits : ∀ v, v ≠ e.thread → (Waits Qs' w v ↔ Waits Qs w v) := by
    intro v hv
    cases hout with
    | going e' h1 h2 h3 h4 h5 => exact h4 w v
    | linked h1 h2 h3 => rw [h2]; simp [hv]
    | timedOut h1 h2 h3 h4 => exact h2 w v
    | satisfied h1 h2 h3 h4 => exact h2 w v
  -- who is blocked now was blocked, or on its way in
  have hold : ∀ v, Waits Qs' s'.mq.waitQueue v ∨ s'.Entering v → Waits Qs s.mq.waitQueue v ∨ s.Entering v := by
    intro v hx
    by_cases hv : v = e.thread
    · subst hv
      exact .inr ⟨e, henq, rfl⟩
    · rw [show s'.mq = s.mq from rfl, h.queue] at hx
      rw [h.queue]
      exact hx.imp (hwaits v hv).1 fun he => absurd he (hnoent' v hv)
  refine ⟨Qs', by rw [hpe]; exact htq', h.queue, ?_, fun e' he' => ?_, ⟨fun hop => ?_, fun hp => ?_⟩, fun v => ?_,
    fun hop => ?_⟩
  · rw [show s'.kernel = k' from rfl, hfr.tq w]
    exact h.timeout
  · rw [hpe] at he'
    subst he'
    cases hout with
    | going _ h1 h2 h3 _ _ =>
      refine ⟨h2.trans heq, ?_⟩
      rw [show s'.sync = s.sync by simp only [MqState.sync, hs', h3]]
      exact hsat
  · rcases h.shut.1 hop with hp | hp <;> rw [hph] at hp <;> cases hp
  · cases o <;> cases hp
  · by_cases hv : v = e.thread
    · subst hv
      cases hout with
      | going e' h1 h2 h3 h4 h5 => exact .inside c hcall (.inr ⟨e', hpe, h1⟩) (hnosub' _) (hblock.congr h5 rfl rfl)
      | linked h1 h2 h3 =>
        refine .inside c hcall (.inl ?_) (hnosub' _) (hblock.congr h3 rfl rfl)
        rw [show s'.mq = s.mq from rfl, h.queue]
        exact (h2 _ _).2 (.inr ⟨heq.symm, rfl⟩)
      | timedOut h1 h2 h3 h4 =>
        refine .ended c hcall h3 (hn rfl) (hnosub' _) (hblock.fail ?_)
        rw [MqState.retCode, show s'.kernel = k' from rfl, h4, heq]
        show (s.kernel.tq w).timeoutStatus ≠ mqSuccessful
        rw [h.timeout]
        decide
      | satisfied h1 _ _ _ => exact absurd h1 hsync
    · refine (h.threads v).congr (hfr.other v hv) rfl rfl rfl ?_ (iff_of_false (hnoent' v hv) (hnoent v hv))
        (iff_of_false (hnosub' v) (hnosub v))
      rw [show s'.mq = s.mq from rfl, h.queue]
      exact hwaits v hv
  · have hd := h.data hop
    refine ⟨?_, hd.law, fun v c hv hx hkind => ⟨(hd.receivers v c hv (hold v hx) hkind).1, hhand'⟩,
      fun v c hv hx hkind => hd.senders v c hv (hold v hx) hkind, fun hp => ?_⟩
    · rw [hhand', ← hhand]
      exact hd.buffers
    · cases o <;> cases hp

/-! ## Ends without a message -/

/-- A blocked call ends with an error: its thread is ready, with the code of the error. -/
theorem MqInv.failed (h : MqInv clean count w s Qs pend inact) {k' : Kernel T W} {w' : W}
    (htq' : TqInv k' Qs' s.phase.enq) (hw : Waits Qs w' t) (hwaits : ∀ w u, Waits Qs' w u ↔ Waits Qs w u ∧ u ≠ t)
    (hready : k'.Ready t) (hother : ∀ u, u ≠ t → k'.thr u = s.kernel.thr u) (hkq : k'.tq = s.kernel.tq)
    (hex : k'.executing = s.kernel.executing) (hret : w' = w → (k'.thr t).wait.retCode ≠ mqSuccessful) :
    MqInv clean count w { s with kernel := k' } Qs' pend inact := by
  set s' : MqState T W M := { s with kernel := k' } with hs'
  have hsub : ∀ v, s'.Submitting v ↔ s.Submitting v := fun v => by
    simp only [MqState.Submitting, hs', hex]
  have hent : ¬ s.Entering t := fun ⟨e, he, ht⟩ => (h.tq.phase e he).out w' (ht ▸ hw)
  have hsync : s'.sync = s.sync := by simp only [MqState.sync, hs', hkq]
  refine ⟨htq', h.queue, by rw [show s'.kernel = k' from rfl, hkq]; exact h.timeout, fun e he => ?_, h.shut, fun v => ?_,
    fun hop => ?_⟩
  · rw [hsync]
    exact h.phase e he
  · by_cases hv : v = t
    · subst hv
      cases h.threads v with
      | outside h1 h2 h3 h4 =>
        exact .outside h1 (fun hx => h2 ((hwaits _ v).1 hx).1) h3 (mt (hsub v).1 h4)
      | running _ _ _ _ h3 _ => exact absurd h3 (h.tq.not_ready hw)
      | inside c h1 h2 h3 h4 =>
        have hin : Waits Qs w v := by
          rw [← h.queue]
          exact h2.resolve_right hent
        exact .ended c h1 hready hent (mt (hsub v).1 h3) (h4.fail (hret (h.tq.waits_unique hw hin)))
      | ended _ _ h2 _ _ _ => exact absurd h2 (h.tq.not_ready hw)
    · exact (h.threads v).congr (hother v hv) rfl rfl rfl ((hwaits _ v).trans (and_iff_left hv)) Iff.rfl (hsub v)
  · have hd := h.data hop
    have hold : ∀ v, Waits Qs' s'.mq.waitQueue v ∨ s'.Entering v → Waits Qs s.mq.waitQueue v ∨ s.Entering v :=
      fun v hx => hx.imp (fun hx => ((hwaits _ v).1 hx).1) id
    exact ⟨hd.buffers, hd.law, fun v c hv hx => hd.receivers v c hv (hold v hx), fun v c hv hx => hd.senders v c hv (hold v hx),
      fun hp hpend v hx => hd.asked hp hpend v ((hwaits _ v).1 hx).1⟩

theorem MqInv.expire (h : MqInv clean count w s Qs pend inact) (ha : (s.kernel.thr t).timer = .active) :
    ∃ Qs', MqInv clean count w (mqNext s (.expire t)) Qs' pend inact := by
  have hex := h.tq.tickle_executing ha
  obtain ⟨Qs', htq', he⟩ := h.tq.tickle ha
  refine ⟨Qs', ?_⟩
  cases he with
  | took w' h1 h2 h3 h4 h5 =>
    refine h.failed htq' h1 h2 h3 (fun u hu => by rw [h4, setThr_thr_ne _ _ _ hu]) h5 hex (fun hw => ?_)
    subst hw
    rw [h4, setThr_thr_self]
    show (s.kernel.tq w').timeoutStatus ≠ mqSuccessful
    rw [h.timeout]
    decide
  | noted e h1 h2 h3 h4 h5 =>
    -- a note for the thread on its way in, which nobody can serve meanwhile
    subst h2 h3
    obtain ⟨hq, hsat⟩ := h.phase e h1
    set s' := mqNext s (.expire e.thread) with hs'
    have hwait : ∀ v, (s'.kernel.thr v).wait = (s.kernel.thr v).wait := by
      intro v
      simp only [hs', mqNext, h4]
      by_cases hv : v = e.thread
      · subst hv; rw [setThr_thr_self]
      · rw [setThr_thr_ne _ _ _ hv]
    have hsub : ∀ v, s'.Submitting v ↔ s.Submitting v := fun v => by
      simp only [MqState.Submitting, hs', mqNext, hex]
    refine ⟨htq', h.queue, ?_, fun e' he' => ?_, h.shut, fun v => ?_, fun hop => ?_⟩
    · have ht := h.timeout
      simp only [hs', mqNext, h5]
      split
      · rw [hq]
        simpa [Kernel.setTq] using ht
      · exact ht
    · refine ⟨(h.phase e' he').1, ?_⟩
      simp only [MqState.sync, hs', mqNext, h5, h.queue, hq]
      split
      · simp [Kernel.setTq]
      · rw [MqState.sync, h.queue] at hsat
        exact hsat
    · by_cases hv : v = e.thread
      · subst hv
        have hin : s.Entering e.thread := ⟨e, h1, rfl⟩
        cases h.threads e.thread with
        | outside _ _ h3 _ => exact absurd hin h3
        | running _ _ _ c2 _ _ =>
          rw [MqState.Submitting] at c2
          rw [c2.1] at h1
          cases h1
        | inside c c1 c2 c3 c4 => exact .inside c c1 c2 (mt (hsub _).1 c3) (c4.congr (hwait _) rfl rfl)
        | ended _ _ _ h3 _ _ => exact absurd hin h3
      · refine (h.threads v).congr ?_ rfl rfl rfl Iff.rfl Iff.rfl (hsub v)
        simp only [hs', mqNext, h4]
        rw [setThr_thr_ne _ _ _ hv]
    · have hd := h.data hop
      exact ⟨hd.buffers, hd.law, hd.receivers, hd.senders, hd.asked⟩

theorem MqInv.flush (h : MqInv clean count w s Qs pend inact) (hph : s.phase = .closing) (hshut : s.opened = false) :
    ∃ Qs', MqInv clean count w (mqNext s .flush) Qs' pend inact := by
  have hnone : s.phase.enq = none := by rw [hph]; rfl
  have hopen : ∀ {P : Prop}, s.opened = true → P := fun hop => by rw [hshut] at hop; cases hop
  obtain ⟨Qs', htq', hd⟩ := h.tq.dequeue w
  cases hret : lwpThreadqueueDequeue s.kernel w with
  | mk k' o =>
    rw [hret] at hd htq'
    simp only [mqNext, h.queue, hret]
    simp only at htq'
    cases hd with
    | took u h1 h2 h3 h4 h5 =>
      simp only at h4 h5 h3
      have hnosub : ∀ (k : Kernel T W) v, ¬ ({ s with kernel := k } : MqState T W M).Submitting v := fun k v ⟨hp, _⟩ => by
        rw [hph] at hp
        cases hp
      set s' : MqState T W M := { s with kernel := k'.setRetCode u mqDeleted } with hs'
      have hent : ¬ s.Entering u := fun ⟨e, he, _⟩ => by rw [hnone] at he; cases he
      obtain ⟨c, hcu, hblock, -⟩ := h.waiter h1
      refine ⟨Qs', htq'.setRetCode u mqDeleted, h.queue, ?_, fun e he => (by rw [hnone] at he; cases he), h.shut, fun v => ?_,
        fun hop => hopen hop⟩
      · rw [show (s'.kernel.tq w) = k'.tq w from rfl, h5]
        exact h.timeout
      · by_cases hv : v = u
        · subst hv
          refine .ended c hcu ?_ hent (hnosub _ v) (hblock.fail ?_)
          · exact (setRetCode_ready k' v mqDeleted).2 h3
          · rw [MqState.retCode, setRetCode_retCode k' v mqDeleted]
            decide
        · refine (h.threads v).congr ?_ rfl rfl rfl ((h2 _ v).trans (and_iff_left hv)) Iff.rfl
            (iff_of_false (hnosub _ v) (hnosub _ v))
          rw [setRetCode_thr_ne k' u mqDeleted hv, h4, setThr_thr_ne _ _ _ hv]
    | early e h1 _ _ _ _ _ => rw [hnone] at h1; cases h1
    | nobody h1 h2 h3 h4 =>
      subst h3
      simp only at h4
      subst h4
      set s' : MqState T W M := { s with kernel := s.kernel, mq := lwpmqFlushSupport s.mq, phase := .idle } with hs'
      have hidle : ∀ v, ¬ s'.Entering v ∧ ¬ s'.Submitting v := MqState.idle_out rfl
      refine ⟨Qs', ?_, h.queue, h.timeout, fun e he => (by cases he), ⟨fun _ => .inl rfl, fun hp => (by cases hp)⟩, fun v => ?_, fun hop => hopen hop⟩
      · rw [hnone] at htq'
        exact htq'
      · refine (h.threads v).congr rfl rfl rfl rfl Iff.rfl (iff_of_false (hidle v).1 ?_) (iff_of_false (hidle v).2 ?_)
        · rintro ⟨e, he, -⟩
          rw [hnone] at he
          cases he
        · rintro ⟨hp, -⟩
          rw [hph] at hp
          cases hp

/-- Between calls, a step that leaves the queue alone and only touches threads that are ready. -/
theorem MqInv.ret (h : MqInv clean count w s Qs pend inact) (hph : s.phase = .idle) (hr : s.kernel.Ready t) :
    MqInv clean count w (mqNext s (.ret t)) Qs pend inact := by
  have hidle : ∀ v, ¬ s.Entering v ∧ ¬ s.Submitting v := MqState.idle_out hph
  have hout : ∀ w', ¬ Waits Qs w' t := fun w' hw => h.tq.not_ready hw hr
  have hcalls : ∀ v, v ≠ t → (mqNext s (.ret t)).calls v = s.calls v := fun v hv => Function.update_of_ne hv ..
  have hold : ∀ v c, (mqNext s (.ret t)).calls v = some c → s.calls v = some c := by
    intro v c hv
    by_cases hvt : v = t
    · subst hvt
      rw [show (mqNext s (.ret v)).calls v = none from Function.update_self ..] at hv
      cases hv
    · rw [hcalls v hvt] at hv
      exact hv
  refine ⟨h.tq, h.queue, h.timeout, h.phase, h.shut, fun v => ?_, fun hop => ?_⟩
  · by_cases hv : v = t
    · subst hv
      exact .outside (Function.update_self ..) (hout _) (hidle v).1 (hidle v).2
    · exact (h.threads v).congr rfl (hcalls v hv) rfl rfl Iff.rfl Iff.rfl Iff.rfl
  · have hd := h.data hop
    exact ⟨hd.buffers, hd.law, fun v c hv => hd.receivers v c (hold v c hv), fun v c hv => hd.senders v c (hold v c hv), hd.asked⟩

theorem MqInv.elsewhere (h : MqInv clean count w s Qs pend inact) (hph : s.phase = .idle) (hc : s.calls t = none)
    (status : BitVec 32) : MqInv clean count w (mqNext s (.elsewhere t status)) Qs pend inact := by
  have hidle : ∀ v, ¬ s.Entering v ∧ ¬ s.Submitting v := MqState.idle_out hph
  refine ⟨h.tq.setRetCode t status, h.queue, h.timeout, h.phase, h.shut, fun v => ?_, fun hop => ?_⟩
  · by_cases hv : v = t
    · subst hv
      exact .outside hc (h.outside hc).1 (hidle v).1 (hidle v).2
    · exact (h.threads v).congr (setRetCode_thr_ne _ _ _ hv) rfl rfl rfl Iff.rfl Iff.rfl Iff.rfl
  · have hd := h.data hop
    exact ⟨hd.buffers, hd.law, hd.receivers, hd.senders, hd.asked⟩

theorem MqInv.close (h : MqInv clean count w s Qs pend inact) (hph : s.phase = .idle) :
    MqInv clean count w (mqNext s (.close t)) Qs pend inact := by
  have hidle : ∀ v, ¬ s.Entering v ∧ ¬ s.Submitting v := MqState.idle_out hph
  have hnone : s.phase.enq = none := by rw [hph]; rfl
  have htq := h.tq
  rw [hnone] at htq
  refine ⟨htq.switch t, h.queue, h.timeout, fun e he => (by cases he), ⟨fun _ => .inr rfl, fun _ => rfl⟩, fun v => ?_, fun hop => (by cases hop)⟩
  refine (h.threads v).congr rfl rfl rfl rfl Iff.rfl (iff_of_false ?_ (hidle v).1) (iff_of_false ?_ (hidle v).2)
  · rintro ⟨e, he, -⟩
    cases he
  · rintro ⟨hp, -⟩
    cases hp

/-! ## Every run -/

/-- A send that blocks does so with no error of an earlier call in its thread's `ret_code`. -/
def mqClean (s : MqState T W M) : MqEvent T M → Prop
  | .deposit =>
    match s.calls s.kernel.executing with
    | some ⟨.send call _, _, _⟩ => s.mq.numPendingmsgs < s.mq.maxPendingmsgs ∨ call.waitStatus ≠ 0 ∨
        s.retCode s.kernel.executing = mqSuccessful
    | _ => True
  | _ => True

instance (s : MqState T W M) : ∀ e, Decidable (mqClean s e)
  | .deposit =>
    match h : s.calls s.kernel.executing with
    | some ⟨.send call _, _, _⟩ =>
      decidable_of_iff (s.mq.numPendingmsgs < s.mq.maxPendingmsgs ∨ call.waitStatus ≠ 0 ∨
        s.retCode s.kernel.executing = mqSuccessful) (by simp only [mqClean, h])
    | some ⟨.receive, _, _⟩ => isTrue (by simp only [mqClean, h])
    | none => isTrue (by simp only [mqClean, h])
  | .submit _ _ _ | .seize _ _ | .refill | .enqueue | .ret _ | .expire _ | .elsewhere _ _ | .close _ | .flush =>
    inferInstanceAs (Decidable True)

theorem mqNext_inv (h : MqInv clean count w s Qs pend inact) (hpos : 0 < count)
    {e : MqEvent T M} (hg : mqGuard s e) (hclean : clean → mqClean s e) :
    ∃ Qs' pend' inact', MqInv clean count w (mqNext s e) Qs' pend' inact' := by
  cases e with
  | submit t call msg =>
    obtain ⟨Qs', h'⟩ := h.submit hg.1 hg.2.1 hg.2.2.1 hg.2.2.2 hpos
    exact ⟨Qs', _, _, h'⟩
  | deposit =>
    obtain ⟨call, msg, hc, hr, hf⟩ := h.submitter hg
    have hcl : clean → ¬ s.mq.numPendingmsgs < s.mq.maxPendingmsgs → call.waitStatus = 0 →
        s.retCode s.kernel.executing = mqSuccessful := by
      intro hcl hlt hws
      have := hclean hcl
      simp only [mqClean, hc] at this
      exact (this.resolve_left hlt).resolve_left (not_not.2 hws)
    obtain ⟨pend', inact', h'⟩ := h.deposit hg rfl hc hr hf hcl
    refine ⟨Qs, pend', inact', ?_⟩
    simp only [mqNext, hc]
    exact h'
  | seize t flags =>
    obtain ⟨pend', h'⟩ := h.seize hg.1 hg.2.1 hg.2.2.1
    exact ⟨Qs, pend', _, h'⟩
  | refill =>
    obtain ⟨b, hb⟩ := hg
    simp only [mqNext, hb]
    exact h.refill hb
  | enqueue =>
    cases hph : s.phase with
    | entering e =>
      obtain ⟨Qs', h'⟩ := h.enqueue hph
      exact ⟨Qs', _, _, h'⟩
    | idle => rw [mqGuard, hph] at hg; cases hg
    | submitting => rw [mqGuard, hph] at hg; cases hg
    | refilling b => rw [mqGuard, hph] at hg; cases hg
    | closing => rw [mqGuard, hph] at hg; cases hg
  | ret t => exact ⟨_, _, _, h.ret hg.1 hg.2.1⟩
  | expire t =>
    obtain ⟨Qs', h'⟩ := h.expire hg
    exact ⟨Qs', _, _, h'⟩
  | elsewhere t status => exact ⟨_, _, _, h.elsewhere hg.1 hg.2.2 status⟩
  | close t => exact ⟨_, _, _, h.close hg.2.1⟩
  | flush =>
    obtain ⟨Qs', h'⟩ := h.flush hg (h.shut.2 hg)
    exact ⟨Qs', _, _, h'⟩

theorem MqInv.start {k : Kernel T W} (hk : QueueIdle k w) (mem : Mem MqList Nat) (msgs : Nat → MqBuffercntrl M)
    (waits : T → MqWaitinfo T) (frame : T → M) (frameSize : T → BitVec 32) :
    ∃ Qs, MqInv clean count w (mqStart k w count mem msgs waits frame frameSize) Qs [] (List.range count.toNat) := by
  obtain ⟨Qs, h, hno⟩ := hk
  have hst : WaitState stWaitingForMessage := by decide
  obtain ⟨h', hw'⟩ := h.threadqueueInit hno .fifo hst mqTimeout
  have hout : ∀ t, ¬ Waits (freshQueue Qs w .fifo) w t := fun t ht => hno t ((hw' w t).1 ht)
  set s := mqStart k w count mem msgs waits frame frameSize with hs
  have hidle : ∀ v, ¬ s.Entering v ∧ ¬ s.Submitting v := MqState.idle_out rfl
  refine ⟨_, h', rfl, ?_, fun e he => (by cases he), ⟨fun he => (by cases he), fun hp => (by cases hp)⟩,
    fun t => .outside rfl (hout t) (hidle t).1 (hidle t).2, fun _ => ?_⟩
  · simp [hs, mqStart, lwpmqInitialize, lwpThreadqueueInit_tq]
  · exact ⟨lwpmqInitialize_buffers k w count mem msgs, .nil, fun t c hc => (by cases hc), fun t c hc => (by cases hc),
      fun hp => (by cases hp)⟩

theorem MqInv.blocked (h : MqInv clean count w s Qs pend inact) (hc : s.calls t = some c) (hr : ¬ s.kernel.Ready t) :
    Waits Qs s.mq.waitQueue t ∨ s.Entering t := by
  cases h.threads t with
  | outside h1 _ _ _ => rw [hc] at h1; cases h1
  | running _ _ _ _ h3 _ => exact absurd h3 hr
  | inside _ _ h2 _ _ => exact h2
  | ended _ _ h2 _ _ _ => exact absurd h2 hr

/-- A thread inside a call that is ready between calls is at the end of its own. -/
theorem MqInv.finished (h : MqInv clean count w s Qs pend inact) (hph : s.phase = .idle) (hc : s.calls t = some c) (hr : s.kernel.Ready t) :
    MqEnd clean s t c := by
  obtain ⟨hent, hsub⟩ := MqState.idle_out hph t
  cases h.threads t with
  | outside h1 _ _ _ => rw [hc] at h1; cases h1
  | running _ _ _ h2 _ _ => exact absurd h2 hsub
  | inside _ _ h2 _ _ => exact absurd hr (h.tq.not_ready (h2.resolve_right hent))
  | ended c' h1 _ _ _ h5 =>
    rw [hc] at h1
    cases h1
    exact h5

/-- **The message queue is a double-ended queue.**  In every run of sends, jams and receives of any kind by any threads and of
expiring timers, from a new queue of `count` messages and as long as it exists: `num_pendingmsgs` is the length of the pending
list and at most `count`; the pending buffers, the inactive ones and the one a receive is refilling number `count`; a receiver
is blocked only when no message is pending and a sender only when all buffers are in use; the messages accepted and received
so far are a history of a double-ended queue that holds the pending ones; and a receive that is over returns true exactly when
it got a message, which is in its buffer. -/
theorem message_queue_deque (k : Kernel T W) (w : W) (count : BitVec 32) (mem : Mem MqList Nat)
    (msgs : Nat → MqBuffercntrl M) (waits : T → MqWaitinfo T) (frame : T → M) (frameSize : T → BitVec 32)
    (es : List (MqEvent T M)) (s : MqState T W M) (hk : QueueIdle k w) (hcount : 1 ≤ count)
    (hes : mqSystem.Legal (mqStart k w count mem msgs waits frame frameSize) es)
    (hs : s = mqSystem.run (mqStart k w count mem msgs waits frame frameSize) es) (ho : s.opened = true) :
    ∃ pend inact : List Nat, Rep s.mq.mem (mqLists pend inact) ∧
      s.mq.maxPendingmsgs = count ∧ s.mq.numPendingmsgs.toNat = pend.length ∧ pend.length ≤ count.toNat ∧
      pend.length + inact.length + s.hand.toList.length = count.toNat ∧
      (∀ t c, s.calls t = some c → ¬ s.kernel.Ready t → c.kind = .receive → pend = [] ∧ s.hand = none) ∧
      (∀ t c, s.calls t = some c → ¬ s.kernel.Ready t → c.kind ≠ .receive →
        pend.length + s.hand.toList.length = count.toNat) ∧
      Deque.Run s.log (s.mq.contents pend) ∧
      (Deque.puts s.log).Perm (Deque.takes s.log ++ s.mq.contents pend) ∧
      ∀ t c, s.calls t = some c → s.kernel.Ready t → s.phase = .idle → c.kind = .receive →
        (s.returns t = true ↔ c.served.isSome) ∧ ∀ m, c.served = some m → s.frame t = m := by
  have hpos : 0 < count := by bv_omega
  have hinv : ∃ Qs pend inact, MqInv False count w s Qs pend inact := by
    rw [hs]
    obtain ⟨Qs, h⟩ := MqInv.start hk mem msgs waits frame frameSize
    refine System.Legal.invariant (I := fun s => ∃ Qs pend inact, MqInv False count w s Qs pend inact) ?_ ⟨Qs, [], _, h⟩ hes
    rintro s e ⟨Qs, pend, inact, h⟩ hg
    exact mqNext_inv h hpos hg (fun hf => hf.elim)
  obtain ⟨Qs, pend, inact, h⟩ := hinv
  have hd := h.data ho
  have htot := hd.buffers.total
  refine ⟨pend, inact, hd.buffers.rep, BitVec.eq_of_toNat_eq hd.buffers.limit, hd.buffers.num, by omega, htot,
    fun t c hc hr hkind => hd.receivers t c hc (h.blocked hc hr) hkind, fun t c hc hr hkind => ?_, hd.law, hd.law.puts_perm,
    fun t c hc hr hph hkind => ?_⟩
  · rw [hd.senders t c hc (h.blocked hc hr) hkind] at htot
    simpa using htot
  · have hend := h.finished hph hc hr
    cases hend with
    | received status m h1 h2 => simp [MqState.returns, hc, h1, h2]
    | nothing status h1 => simp [MqState.returns, hc, h1]
    | accepted call msg => cases hkind
    | refused call msg status h1 h2 => cases hkind
    | late call msg h1 => cases hkind
    | gaveUp call msg h1 => cases hkind

/-- Three threads on a queue of one message: the second send blocks, a receive makes room for it, and a jam finds the queue full
again. -/
def mqSample : List (MqEvent (Fin 3) Nat) :=
  [.submit 1 ⟨false, .block⟩ 10, .deposit, .ret 1, .submit 1 ⟨false, .timed false⟩ 11, .deposit, .enqueue, .enqueue, .enqueue,
    .seize 2 .block, .refill, .submit 0 ⟨true, .noblock⟩ 12, .deposit]

/-- The queue of one message that the samples use. -/
def mqSampleStart : MqState (Fin 3) Unit Nat :=
  mqStart (sampleKernel ⟨.synchronized, .fifo, stWaitingForMessage, 0⟩) () 1 (fun _ => .null) (fun _ => ⟨0, 0, 0⟩)
    (fun _ => ⟨none, .word 0⟩) (fun _ => 0) (fun _ => 0)

theorem message_queue_deque_sample :
    mqSystem.Legal mqSampleStart mqSample ∧ ∃ pend : List Nat, pend.length = 1 ∧
      Deque.Run (mqSystem.run mqSampleStart mqSample).log ((mqSystem.run mqSampleStart mqSample).mq.contents pend) := by
  have hl : mqSystem.Legal mqSampleStart mqSample := by decide +kernel
  obtain ⟨s, hs⟩ : ∃ s, s = mqSystem.run mqSampleStart mqSample := ⟨_, rfl⟩
  have hn : s.mq.numPendingmsgs = 1 := by rw [hs]; decide +kernel
  obtain ⟨pend, inact, -, -, hnum, -, -, -, -, hlaw, -⟩ := message_queue_deque _ () 1 (fun _ => .null) (fun _ => ⟨0, 0, 0⟩)
    (fun _ => ⟨none, .word 0⟩) (fun _ => 0) (fun _ => 0) mqSample s (sampleKernel_idle (by decide)) (by decide) hl hs
    (by rw [hs]; decide +kernel)
  rw [← hs]
  refine ⟨hl, pend, ?_, hlaw⟩
  rw [← hnum, hn]
  rfl

end Libogc
