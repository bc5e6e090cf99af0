import Libogc.Lwp.Messages
/-!
# MessageLists — the buffers of a message queue

Every buffer is pending, inactive, or in the hand of a receive that emptied it (`MqBuffers`); `contents` is what the pending
ones hold, in order.  Each operation on the lists moves one buffer.
-/
namespace Libogc

open Links Runs

set_option linter.unusedSectionVars false

variable {T W M : Type} [DecidableEq T] [DecidableEq W]

def mqLists (pend inact : List Nat) : MqList → Option (List Nat)
  | .pending => some pend
  | .inactive => some inact

theorem mqLists_pending (pend inact : List Nat) : mqLists pend inact .pending = some pend := rfl
theorem mqLists_inactive (pend inact : List Nat) : mqLists pend inact .inactive = some inact := rfl

theorem mqLists_update_pending (pend inact xs : List Nat) : Function.update (mqLists pend inact) .pending (some xs) = mqLists xs inact := by
  funext q
  cases q <;> rfl

theorem mqLists_update_inactive (pend inact xs : List Nat) :
    Function.update (mqLists pend inact) .inactive (some xs) = mqLists pend xs := by
  funext q
  cases q <;> rfl

theorem mqLists_free {pend inact : List Nat} {b : Nat} (hp : b ∉ pend) (hi : b ∉ inact) : Free (mqLists pend inact) b := by
  intro q xs hx
  cases q with
  | pending => cases hx; exact hp
  | inactive => cases hx; exact hi

/-- **Where the buffers are.** -/
structure MqBuffers (count : Nat) (mq : MqCntrl W M) (pend inact : List Nat) (hand : Option Nat) : Prop where
  rep : Rep mq.mem (mqLists pend inact)
  num : mq.numPendingmsgs.toNat = pend.length
  limit : mq.maxPendingmsgs.toNat = count
  size : mqMsgSize ≤ mq.maxMsgsize
  total : pend.length + inact.length + hand.toList.length = count
  out : ∀ b, hand = some b → b ∉ pend ∧ b ∉ inact

variable {count : Nat} {mq : MqCntrl W M} {pend inact : List Nat} {b : Nat}

theorem MqBuffers.num_lt (h : MqBuffers count mq pend inact none) : mq.numPendingmsgs < mq.maxPendingmsgs ↔ inact ≠ [] := by
  have h1 := h.num
  have h2 := h.limit
  have h3 := h.total
  simp only [Option.toList_none, List.length_nil] at h3
  rw [BitVec.lt_def, h1, h2, ← List.length_pos_iff]
  omega

theorem MqBuffers.num_zero {hand : Option Nat} (h : MqBuffers count mq pend inact hand) : mq.numPendingmsgs = 0 ↔ pend = [] := by
  rw [← List.length_eq_zero_iff, ← h.num]
  constructor
  · intro h0
    rw [h0]
    rfl
  · intro h0
    exact BitVec.eq_of_toNat_eq h0

theorem MqBuffers.setMsgs {hand : Option Nat} (h : MqBuffers count mq pend inact hand) (msgs : Nat → MqBuffercntrl M) :
    MqBuffers count { mq with msgs := msgs } pend inact hand := ⟨h.rep, h.num, h.limit, h.size, h.total, h.out⟩

theorem MqBuffers.take (h : MqBuffers count mq (b :: pend) inact none) :
    ∃ mem, lwpQueueGetI mq.mem .pending = (mem, .node b) ∧
      MqBuffers count { mq with numPendingmsgs := mq.numPendingmsgs - 1, mem := mem } pend inact (some b) := by
  obtain ⟨hrep, hret⟩ := lwpQueueFirstnodeI_rep h.rep (mqLists_pending (b :: pend) inact)
  rw [mqLists_update_pending] at hrep
  have hne : lwpQueueIsempty mq.mem .pending = false := by
    rw [← Bool.not_eq_true, lwpQueueIsempty_iff h.rep (mqLists_pending (b :: pend) inact)]
    simp
  refine ⟨(lwpQueueFirstnodeI mq.mem .pending).1, ?_, hrep, ?_, h.limit, h.size, ?_, fun b' hb' => ?_⟩
  · rw [lwpQueueGetI, hne, ← hret]
    rfl
  · have h1 := h.num
    rw [List.length_cons] at h1
    show (mq.numPendingmsgs - 1).toNat = _
    bv_omega
  · have h3 := h.total
    simp only [List.length_cons, Option.toList_none, List.length_nil] at h3
    simp only [Option.toList_some, List.length_cons, List.length_nil]
    omega
  · cases hb'
    refine ⟨(List.nodup_cons.1 (h.rep.nodup (mqLists_pending (b :: pend) inact))).1, fun hi => ?_⟩
    cases h.rep.disjoint (mqLists_pending (b :: pend) inact) (mqLists_inactive (b :: pend) inact) List.mem_cons_self hi

theorem MqBuffers.allocate (h : MqBuffers count mq pend (b :: inact) none) :
    ∃ mem, lwpQueueGetI mq.mem .inactive = (mem, .node b) ∧ MqBuffers count { mq with mem := mem } pend inact (some b) := by
  obtain ⟨hrep, hret⟩ := lwpQueueFirstnodeI_rep h.rep (mqLists_inactive pend (b :: inact))
  rw [mqLists_update_inactive] at hrep
  have hne : lwpQueueIsempty mq.mem .inactive = false := by
    rw [← Bool.not_eq_true, lwpQueueIsempty_iff h.rep (mqLists_inactive pend (b :: inact))]
    simp
  refine ⟨(lwpQueueFirstnodeI mq.mem .inactive).1, ?_, hrep, h.num, h.limit, h.size, ?_, fun b' hb' => ?_⟩
  · rw [lwpQueueGetI, hne, ← hret]
    rfl
  · have h3 := h.total
    simp only [List.length_cons, Option.toList_none, List.length_nil] at h3
    simp only [Option.toList_some, List.length_cons, List.length_nil]
    omega
  · cases hb'
    refine ⟨fun hp => ?_, (List.nodup_cons.1 (h.rep.nodup (mqLists_inactive pend (b :: inact)))).1⟩
    cases h.rep.disjoint (mqLists_pending pend (b :: inact)) (mqLists_inactive pend (b :: inact)) hp List.mem_cons_self

theorem MqBuffers.free (h : MqBuffers count mq pend inact (some b)) :
    MqBuffers count { mq with mem := lwpQueueAppendI mq.mem .inactive b } pend (inact ++ [b]) none := by
  obtain ⟨hp, hi⟩ := h.out b rfl
  have hrep := lwpQueueAppendI_rep h.rep (mqLists_inactive pend inact) (mqLists_free hp hi)
  rw [mqLists_update_inactive] at hrep
  refine ⟨hrep, h.num, h.limit, h.size, ?_, fun b' hb' => (by cases hb')⟩
  have h3 := h.total
  simp only [Option.toList_some, List.length_cons, List.length_nil] at h3
  simp only [List.length_append, List.length_cons, List.length_nil, Option.toList_none]
  omega

/-- The pending list with one more buffer, ahead of the others or behind them. -/
def putBuffer (jam : Bool) (b : Nat) (pend : List Nat) : List Nat := if jam then b :: pend else pend ++ [b]

theorem MqBuffers.insert (h : MqBuffers count mq pend inact (some b)) (call : MqSend) (hcount : count < 2 ^ 32) :
    MqBuffers count (lwpmqMsgInsert mq b call.type) (putBuffer call.jam b pend) inact none := by
  obtain ⟨hp, hi⟩ := h.out b rfl
  have hlen : (putBuffer call.jam b pend).length = pend.length + 1 := by
    unfold putBuffer
    cases call.jam <;> simp
  have h3 := h.total
  simp only [Option.toList_some, List.length_cons, List.length_nil] at h3
  have hnum : (mq.numPendingmsgs + 1).toNat = pend.length + 1 := by
    have h1 := h.num
    bv_omega
  have htotal : (putBuffer call.jam b pend).length + inact.length + (none : Option Nat).toList.length = count := by
    rw [hlen, Option.toList_none, List.length_nil]
    omega
  cases hj : call.jam with
  | false =>
    have hrep := lwpQueueAppendI_rep h.rep (mqLists_pending pend inact) (mqLists_free hp hi)
    rw [mqLists_update_pending] at hrep
    have ht : call.type = mqSendRequest := by rw [MqSend.type, hj]; rfl
    rw [hj] at htotal
    rw [ht, lwpmqMsgInsert, if_pos rfl]
    exact ⟨hrep, by rw [← hj, hlen]; exact hnum, h.limit, h.size, htotal, fun b' hb' => by cases hb'⟩
  | true =>
    have hrep := lwpQueuePrependI_rep h.rep (mqLists_pending pend inact) (mqLists_free hp hi)
    rw [mqLists_update_pending] at hrep
    have ht : call.type = mqSendUrgent := by rw [MqSend.type, hj]; rfl
    rw [hj] at htotal
    rw [ht, lwpmqMsgInsert, if_neg (by decide), if_pos rfl]
    exact ⟨hrep, by rw [← hj, hlen]; exact hnum, h.limit, h.size, htotal, fun b' hb' => by cases hb'⟩

/-! ## What they hold -/

def MqCntrl.contents (mq : MqCntrl W M) (pend : List Nat) : List M := pend.map fun b => (mq.msgs b).buffer

theorem contents_update (mq : MqCntrl W M) {b : Nat} {pend : List Nat} (hb : b ∉ pend) (msg : MqBuffercntrl M) (mem : Mem MqList Nat) :
    ({ mq with mem := mem, msgs := Function.update mq.msgs b msg } : MqCntrl W M).contents pend = mq.contents pend := by
  refine List.map_congr_left fun c hc => ?_
  have hne : c ≠ b := fun he => hb (he ▸ hc)
  simp only [Function.update_of_ne hne]

theorem lwpmqMsgInsert_contents (mq : MqCntrl W M) (call : MqSend) (xs : List Nat) :
    (lwpmqMsgInsert mq b call.type).contents xs = mq.contents xs := by
  refine List.map_congr_left fun c _ => ?_
  have hm : (lwpmqMsgInsert mq b call.type).msgs = Function.update mq.msgs b { mq.msgs b with prio := call.type } := by
    unfold lwpmqMsgInsert
    split
    · rfl
    · split <;> rfl
  rw [hm]
  by_cases hc : c = b
  · subst hc; rw [Function.update_self]
  · rw [Function.update_of_ne hc]

theorem contents_put (mq : MqCntrl W M) (jam : Bool) (b : Nat) (pend : List Nat) :
    mq.contents (putBuffer jam b pend) =
      if jam then (mq.msgs b).buffer :: mq.contents pend else mq.contents pend ++ [(mq.msgs b).buffer] := by
  unfold putBuffer MqCntrl.contents
  cases jam <;> simp

theorem contents_insert (mq : MqCntrl W M) {b : Nat} {pend : List Nat} (hb : b ∉ pend) (call : MqSend) (size : BitVec 32) (m : M)
    (mem : Mem MqList Nat) :
    (lwpmqMsgInsert { mq with mem := mem, msgs := Function.update mq.msgs b ⟨call.type, size, m⟩ } b call.type).contents
      (putBuffer call.jam b pend) = if call.jam then m :: mq.contents pend else mq.contents pend ++ [m] := by
  rw [lwpmqMsgInsert_contents, contents_put, contents_update mq hb]
  simp only [Function.update_self]

theorem lwpmqInitialize_buffers (k : Kernel T W) (w : W) (count : BitVec 32) (mem : Mem MqList Nat) (msgs : Nat → MqBuffercntrl M) :
    MqBuffers count.toNat (lwpmqInitialize k w count mqMsgSize mem msgs).2 [] (List.range count.toNat) none := by
  have h₁ := lwpQueueInitialize_rep (Rep.nothing mem) .inactive Function.injective_id (fun i q xs hx => by cases hx) count.toNat
  have h₂ := lwpQueueInitEmpty_rep h₁ .pending
  have he : Function.update (Function.update (fun _ : MqList => (none : Option (List Nat))) .inactive
      (some ((List.range count.toNat).map id))) .pending (some []) = mqLists [] (List.range count.toNat) := by
    funext q
    cases q
    · rfl
    · simp [mqLists]
  rw [he] at h₂
  exact ⟨h₂, rfl, rfl, BitVec.le_refl _, by simp, fun b hb => by cases hb⟩

end Libogc
