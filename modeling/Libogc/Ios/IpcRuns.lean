import Libogc.Ios.Ipc
/-!
# IpcRuns — the request ring as a queue in order

`IpcRing` reads the ring as the list of the requests accepted and not yet sent.  Every step keeps that; whether a pending request has
somebody to send it (`IpcInv`) is kept by all of them but one: the reply to a relaunch that comes after its acknowledge frees the mailbox
and sends nothing.
-/
namespace Libogc

open Rings Runs

section Ring
variable {R : Type} {s : IpcSys R} {xs : List R} {r : R}

/-- **The ring holds what was accepted and not sent**, in order; the mailbox counter stays between a relaunch's two acknowledges and
a free mailbox. -/
structure IpcRing (s : IpcSys R) (xs : List R) : Prop where
  holds : Holds 16 s.reqs s.reqSendNo xs
  queueNo : s.reqQueueNo = (s.reqSendNo + xs.length) % 16
  sent : s.cntSent < 2 ^ 32
  queued : s.cntQueue = u32 (s.cntSent + xs.length)
  order : s.accepted = s.mailbox ++ xs
  low : -1 ≤ s.mailboxack
  high : s.mailboxack ≤ 1

/-- **A pending request has somebody to send it**: an acknowledge is awaited, or a post is about to look at the mailbox. -/
structure IpcInv (s : IpcSys R) (xs : List R) : Prop extends IpcRing s xs where
  kick : xs ≠ [] → 0 < s.mailboxack → 0 < s.posting

theorem IpcRing.cnt (h : IpcRing s xs) : s.cnt = xs.length := by
  have h1 := h.sent
  have h2 := h.holds.fits
  unfold IpcSys.cnt
  rw [h.queued]
  unfold u32
  omega

theorem IpcRing.congr (h : IpcRing s xs) {s' : IpcSys R} (hring : s'.reqs = s.reqs ∧ s'.reqSendNo = s.reqSendNo ∧
    s'.reqQueueNo = s.reqQueueNo ∧ s'.cntSent = s.cntSent ∧ s'.cntQueue = s.cntQueue)
    (hhist : s'.accepted = s.accepted ∧ s'.mailbox = s.mailbox) (hack : -1 ≤ s'.mailboxack ∧ s'.mailboxack ≤ 1) : IpcRing s' xs := by
  obtain ⟨e1, e2, e3, e4, e5⟩ := hring
  refine ⟨by rw [e1, e2]; exact h.holds, by rw [e2, e3]; exact h.queueNo, by rw [e4]; exact h.sent, by rw [e4, e5]; exact h.queued,
    by rw [hhist.1, hhist.2]; exact h.order, hack.1, hack.2⟩

theorem IpcRing.setPosting (h : IpcRing s xs) (n : Nat) : IpcRing { s with posting := n } xs :=
  h.congr ⟨rfl, rfl, rfl, rfl, rfl⟩ ⟨rfl, rfl⟩ ⟨h.low, h.high⟩

/-! ## Queueing and sending -/

theorem ipcEqueuefull_ne : ipcEqueuefull ≠ ipcOk := by decide

theorem ipcQueueRequest_full (h : IpcRing s xs) (hf : 16 ≤ xs.length) (r : R) : ipcQueueRequest s r = (s, ipcEqueuefull) := by
  unfold ipcQueueRequest
  rw [if_pos (by rw [h.cnt]; exact hf)]

theorem ipcQueueRequest_ok (h : IpcRing s xs) (hf : xs.length < 16) (r : R) :
    (ipcQueueRequest s r).2 = ipcOk ∧ IpcRing (ipcQueueRequest s r).1 (xs ++ [r]) ∧
      (ipcQueueRequest s r).1.mailboxack = s.mailboxack ∧ (ipcQueueRequest s r).1.posting = s.posting := by
  unfold ipcQueueRequest
  rw [if_neg (by rw [h.cnt]; omega)]
  refine ⟨rfl, ⟨?_, ?_, h.sent, ?_, ?_, h.low, h.high⟩, rfl, rfl⟩
  · have := h.holds.push hf r
    rw [← h.queueNo] at this
    exact this
  · show (s.reqQueueNo + 1) % 16 = (s.reqSendNo + (xs ++ [r]).length) % 16
    rw [h.queueNo, Nat.mod_add_mod, List.length_append, Nat.add_assoc]
    rfl
  · show u32 (s.cntQueue + 1) = u32 (s.cntSent + (xs ++ [r]).length)
    rw [h.queued, u32_add, List.length_append, Nat.add_assoc]
    rfl
  · show s.accepted ++ [r] = s.mailbox ++ (xs ++ [r])
    rw [h.order, List.append_assoc]

theorem ipcNoteRelaunch_frame (s : IpcSys R) (r : R) : ∃ fl rpc ack, ipcNoteRelaunch s r =
    { s with relnchFl := fl, relnchRpc := rpc, mailboxack := ack } ∧ (ack = s.mailboxack ∨ ack = s.mailboxack - 1) := by
  unfold ipcNoteRelaunch
  split
  · split
    · exact ⟨_, _, _, rfl, .inr rfl⟩
    · exact ⟨_, _, _, rfl, .inl rfl⟩
  · exact ⟨_, _, _, rfl, .inl rfl⟩

variable [DecidableEq R]

theorem ipcSendRequest_nil (h : IpcRing s []) : ipcSendRequest s = s := by
  unfold ipcSendRequest
  rw [if_neg (by rw [h.cnt]; exact Nat.lt_irrefl 0)]

theorem ipcSendRequest_cons (h : IpcRing s (r :: xs)) (hfree : s.mailboxack = 1) :
    IpcRing (ipcSendRequest s) xs ∧ (ipcSendRequest s).mailboxack ≤ 0 ∧ (ipcSendRequest s).posting = s.posting := by
  obtain ⟨fl, rpc, ack, he, hack⟩ := ipcNoteRelaunch_frame (s.setReq r .setMagic) r
  have hack' : ack = 1 ∨ ack = 0 := by
    have : ack = s.mailboxack ∨ ack = s.mailboxack - 1 := hack
    omega
  unfold ipcSendRequest
  rw [if_pos (by rw [h.cnt]; exact Nat.succ_pos _), h.holds.head]
  dsimp only
  rw [he]
  refine ⟨⟨h.holds.pop, ?_, ?_, ?_, ?_, ?_, ?_⟩, ?_, rfl⟩
  · show s.reqQueueNo = ((s.reqSendNo + 1) % 16 + xs.length) % 16
    rw [h.queueNo, Nat.mod_add_mod, List.length_cons, Nat.add_assoc, Nat.add_comm 1]
  · exact Nat.mod_lt _ (by decide)
  · show s.cntQueue = u32 (u32 (s.cntSent + 1) + xs.length)
    rw [h.queued, u32_add, List.length_cons, Nat.add_assoc, Nat.add_comm 1]
  · show s.accepted = s.mailbox ++ [r] ++ xs
    rw [h.order, List.append_assoc]
    rfl
  · show -1 ≤ ack - 1
    omega
  · show ack - 1 ≤ 1
    omega
  · show ack - 1 ≤ 0
    omega

/-- **A send with the mailbox free** leaves nothing pending or the mailbox taken. -/
theorem IpcRing.send (h : IpcRing s xs) (hfree : 0 < s.mailboxack) : ∃ xs', IpcRing (ipcSendRequest s) xs' ∧
    (xs' ≠ [] → (ipcSendRequest s).mailboxack ≤ 0) ∧ (ipcSendRequest s).posting = s.posting ∧ xs'.length = xs.length - 1 := by
  have hone : s.mailboxack = 1 := by
    have := h.high
    omega
  cases xs with
  | nil =>
    rw [ipcSendRequest_nil h]
    exact ⟨[], h, fun hne => absurd rfl hne, rfl, rfl⟩
  | cons r xs =>
    obtain ⟨hr, hack, hp⟩ := ipcSendRequest_cons h hone
    exact ⟨xs, hr, fun _ => hack, hp, rfl⟩

theorem IpcRing.kicked (h : IpcRing s xs) : ∃ xs', IpcRing (ipcKick s) xs' ∧ (xs' ≠ [] → (ipcKick s).mailboxack ≤ 0) ∧
    (ipcKick s).posting = s.posting := by
  unfold ipcKick
  split
  · rename_i hpos
    obtain ⟨xs', hr, hack, hp, -⟩ := h.send hpos
    exact ⟨xs', hr, hack, hp⟩
  · rename_i hn
    exact ⟨xs, h, fun _ => Int.not_lt.1 hn, rfl⟩

/-! ## Posting -/

theorem ipcAsyncQueue_ok {q : IpcReq} (hok : (ipcQueueRequest (s.setReq r fun _ => q) r).2 = ipcOk) :
    ipcAsyncQueue s r q = ({ (ipcQueueRequest (s.setReq r fun _ => q) r).1 with
      posting := (ipcQueueRequest (s.setReq r fun _ => q) r).1.posting + 1 }, ipcOk) := by
  rw [ipcAsyncQueue]
  simp only [hok, if_true]

theorem ipcAsyncQueue_full {q : IpcReq} (hf : ipcQueueRequest (s.setReq r fun _ => q) r = (s.setReq r fun _ => q, ipcEqueuefull)) :
    ipcAsyncQueue s r q = ({ s.setReq r fun _ => q with freed := s.freed ++ [r] }, ipcEqueuefull) := by
  rw [ipcAsyncQueue]
  simp only [hf, ipcEqueuefull_ne, if_false]
  rfl

theorem ipcSyncRequest_ok {q : IpcReq} (hok : (ipcQueueRequest (s.setReq r fun _ => q) r).2 = ipcOk) :
    ipcSyncRequest s r q = (ipcKick (ipcQueueRequest (s.setReq r fun _ => q) r).1, ipcOk) := by
  rw [ipcSyncRequest]
  simp only [hok, if_true]

theorem ipcSyncRequest_full {q : IpcReq} (hf : ipcQueueRequest (s.setReq r fun _ => q) r = (s.setReq r fun _ => q, ipcEqueuefull)) :
    ipcSyncRequest s r q = (s.setReq r fun _ => q, ipcEqueuefull) := by
  rw [ipcSyncRequest]
  simp only [hf, ipcEqueuefull_ne, if_false]

/-- The first section of an asynchronous post: the ring has the request, and the post is under way, or nothing changed. -/
theorem IpcRing.asyncQueue (h : IpcRing s xs) (r : R) (q : IpcReq) :
    ((ipcAsyncQueue s r q).2 = ipcOk ∧ IpcRing (ipcAsyncQueue s r q).1 (xs ++ [r]) ∧
        (ipcAsyncQueue s r q).1.posting = s.posting + 1) ∨
      ((ipcAsyncQueue s r q).2 ≠ ipcOk ∧ IpcRing (ipcAsyncQueue s r q).1 xs ∧
        (ipcAsyncQueue s r q).1.mailboxack = s.mailboxack ∧ (ipcAsyncQueue s r q).1.posting = s.posting) := by
  have h' : IpcRing (s.setReq r fun _ => q) xs := h.congr ⟨rfl, rfl, rfl, rfl, rfl⟩ ⟨rfl, rfl⟩ ⟨h.low, h.high⟩
  rcases Nat.lt_or_ge xs.length 16 with hlt | hge
  · obtain ⟨hok, hr, hack, hp⟩ := ipcQueueRequest_ok h' hlt r
    rw [ipcAsyncQueue_ok hok]
    exact .inl ⟨rfl, hr.setPosting _, congrArg (· + 1) hp⟩
  · rw [ipcAsyncQueue_full (ipcQueueRequest_full h' hge r)]
    exact .inr ⟨ipcEqueuefull_ne, h'.congr ⟨rfl, rfl, rfl, rfl, rfl⟩ ⟨rfl, rfl⟩ ⟨h.low, h.high⟩, rfl, rfl⟩

theorem IpcRing.asyncKick (h : IpcRing s xs) : ∃ xs', IpcInv (ipcAsyncKick s) xs' ∧ (xs' ≠ [] → (ipcAsyncKick s).mailboxack ≤ 0) := by
  obtain ⟨xs', hr, hack, hp⟩ := h.kicked
  refine ⟨xs', ⟨hr.congr ⟨rfl, rfl, rfl, rfl, rfl⟩ ⟨rfl, rfl⟩ ⟨hr.low, hr.high⟩, fun hne hpos => ?_⟩, hack⟩
  have hpos' : 0 < (ipcKick s).mailboxack := hpos
  have := hack hne
  omega

theorem IpcRing.asyncRequest (h : IpcRing s xs) (r : R) (q : IpcReq) : ∃ xs', IpcRing (ipcAsyncRequest s r q) xs' ∧
    ((xs ≠ [] → 0 < s.mailboxack → 0 < s.posting) →
      xs' ≠ [] → 0 < (ipcAsyncRequest s r q).mailboxack → 0 < (ipcAsyncRequest s r q).posting) := by
  unfold ipcAsyncRequest
  dsimp only
  rcases h.asyncQueue r q with ⟨hok, hr, -⟩ | ⟨hfull, hr, hack, hp⟩
  · rw [if_pos hok]
    obtain ⟨xs', hi, -⟩ := hr.asyncKick
    exact ⟨xs', hi.toIpcRing, fun _ => hi.kick⟩
  · rw [if_neg hfull]
    refine ⟨xs, hr, fun hk => ?_⟩
    rw [hack, hp]
    exact hk

theorem IpcRing.posts (posts : List (R × IpcReq)) : ∀ {s : IpcSys R} {xs : List R}, IpcRing s xs →
    ∃ xs', IpcRing (posts.foldl (fun s p => ipcAsyncRequest s p.1 p.2) s) xs' ∧
      ((xs ≠ [] → 0 < s.mailboxack → 0 < s.posting) →
        xs' ≠ [] → 0 < (posts.foldl (fun s p => ipcAsyncRequest s p.1 p.2) s).mailboxack →
          0 < (posts.foldl (fun s p => ipcAsyncRequest s p.1 p.2) s).posting) := by
  induction posts with
  | nil => exact fun {_ xs} h => ⟨xs, h, fun hk => hk⟩
  | cons p posts ih =>
    intro s xs h
    obtain ⟨xs₁, h₁, hk₁⟩ := h.asyncRequest p.1 p.2
    obtain ⟨xs₂, h₂, hk₂⟩ := ih h₁
    exact ⟨xs₂, h₂, fun hk => hk₂ (hk₁ hk)⟩

theorem IpcInv.queue (h : IpcInv s xs) (r : R) (q : IpcReq) : ∃ xs', IpcInv (ipcAsyncQueue s r q).1 xs' := by
  rcases h.toIpcRing.asyncQueue r q with ⟨-, hr, hp⟩ | ⟨-, hr, hack, hp⟩
  · exact ⟨_, hr, fun _ _ => by rw [hp]; exact Nat.succ_pos _⟩
  · refine ⟨xs, hr, ?_⟩
    rw [hack, hp]
    exact h.kick

theorem IpcInv.sync (h : IpcInv s xs) (r : R) (q : IpcReq) : ∃ xs', IpcInv (ipcSyncRequest s r q).1 xs' := by
  have h' : IpcRing (s.setReq r fun _ => q) xs := h.toIpcRing.congr ⟨rfl, rfl, rfl, rfl, rfl⟩ ⟨rfl, rfl⟩ ⟨h.low, h.high⟩
  rcases Nat.lt_or_ge xs.length 16 with hlt | hge
  · obtain ⟨hok, hr, -, -⟩ := ipcQueueRequest_ok h' hlt r
    rw [ipcSyncRequest_ok hok]
    obtain ⟨xs', hk, hack, -⟩ := hr.kicked
    exact ⟨xs', hk, fun hne hpos => absurd hpos (Int.not_lt.2 (hack hne))⟩
  · rw [ipcSyncRequest_full (ipcQueueRequest_full h' hge r)]
    exact ⟨xs, h', h.kick⟩

/-! ## Interrupts -/

/-- **An acknowledge** sends the next request, or there is none, or another acknowledge is awaited. -/
theorem IpcRing.ack (h : IpcRing s xs) : ∃ xs', IpcInv (ipcAckHandler s) xs' ∧
    (xs ≠ [] → 3 * xs'.length + (1 - (ipcAckHandler s).mailboxack).toNat < 3 * xs.length + (1 - s.mailboxack).toNat) := by
  have h1 := h.low
  have h2 := h.high
  obtain ⟨s₁, hs₁⟩ : ∃ s₁ : IpcSys R, s₁ = { s with mailboxack := if s.mailboxack < 1 then s.mailboxack + 1 else s.mailboxack } := ⟨_, rfl⟩
  have hack : s₁.mailboxack = if s.mailboxack < 1 then s.mailboxack + 1 else s.mailboxack := by rw [hs₁]
  have hle : s₁.mailboxack ≤ 1 ∧ -1 ≤ s₁.mailboxack ∧ (s₁.mailboxack ≤ 0 → s₁.mailboxack = s.mailboxack + 1) := by
    rw [hack]
    split <;> omega
  have hr₁ : IpcRing s₁ xs := by
    rw [hs₁]
    exact h.congr ⟨rfl, rfl, rfl, rfl, rfl⟩ ⟨rfl, rfl⟩ (by rw [← hs₁]; exact ⟨hle.2.1, hle.1⟩)
  have he : ipcAckHandler s = if 0 < s₁.mailboxack then ipcSendRequest (ipcRelaunchAck s₁) else s₁ := by
    rw [ipcAckHandler, ← hs₁]
  rw [he]
  split
  · rename_i hpos
    have hr₂ : IpcRing (ipcRelaunchAck s₁) xs ∧ (ipcRelaunchAck s₁).mailboxack = s₁.mailboxack := by
      unfold ipcRelaunchAck
      split
      · exact ⟨hr₁.congr ⟨rfl, rfl, rfl, rfl, rfl⟩ ⟨rfl, rfl⟩ ⟨hr₁.low, hr₁.high⟩, rfl⟩
      · exact ⟨hr₁, rfl⟩
    obtain ⟨xs', hr, hk, -, hlen⟩ := hr₂.1.send (by rw [hr₂.2]; exact hpos)
    refine ⟨xs', ⟨hr, fun hne hpos' => absurd hpos' (Int.not_lt.2 (hk hne))⟩, ?_⟩
    have := hr.low
    have := hr.high
    intro hne
    have := List.length_pos_of_ne_nil hne
    omega
  · rename_i hn
    exact ⟨xs, ⟨hr₁, fun _ hpos => absurd hpos hn⟩, fun _ => by omega⟩

/-- Somebody is to send what is pending. -/
def IpcSys.Kicked (s : IpcSys R) (xs : List R) : Prop := xs ≠ [] → 0 < s.mailboxack → 0 < s.posting

theorem IpcRing.deliver (h : IpcRing s xs) (a : IpcReply R) : ∃ xs', IpcRing (ipcDeliver s a) xs' ∧
    (s.Kicked xs → (ipcDeliver s a).Kicked xs') := by
  unfold ipcDeliver
  split
  · obtain ⟨xs', hr, hk⟩ := IpcRing.posts a.posts h
    exact ⟨xs', hr.congr ⟨rfl, rfl, rfl, rfl, rfl⟩ ⟨rfl, rfl⟩ ⟨hr.low, hr.high⟩, hk⟩
  · exact ⟨xs, h.congr ⟨rfl, rfl, rfl, rfl, rfl⟩ ⟨rfl, rfl⟩ ⟨h.low, h.high⟩, fun hk => hk⟩

omit [DecidableEq R] in
theorem IpcRing.relaunch (h : IpcRing s xs) : IpcRing (ipcRelaunchReply s) xs ∧
    (s.Kicked xs → (s.mailboxack = 0 → xs = [] ∨ 0 < s.posting) → (ipcRelaunchReply s).Kicked xs) := by
  have h1 := h.low
  have h2 := h.high
  have hack : (ipcRelaunchReply s).mailboxack = if s.mailboxack < 1 then s.mailboxack + 1 else s.mailboxack := rfl
  refine ⟨h.congr ⟨rfl, rfl, rfl, rfl, rfl⟩ ⟨rfl, rfl⟩ ?_, fun hk hlost hne hpos => ?_⟩
  · rw [hack]
    split <;> omega
  · rw [hack] at hpos
    split at hpos
    · rcases hlost (by omega) with he | hp
      · exact absurd he hne
      · exact hp
    · exact hk hne (by omega)

/-- **A reply** keeps the ring; a relaunch's may lose the send of what is pending. -/
theorem IpcRing.reply (h : IpcRing s xs) (a : IpcReply R) : ∃ xs', IpcRing (ipcReplyHandler s a) xs' ∧
    (s.Kicked xs → (s.relaunched a = true → s.mailboxack = 0 → xs = [] ∨ 0 < s.posting) → (ipcReplyHandler s a).Kicked xs') := by
  have h' : IpcRing (s.setReq a.req (.answer a.reqCmd a.result)) xs := h.congr ⟨rfl, rfl, rfl, rfl, rfl⟩ ⟨rfl, rfl⟩ ⟨h.low, h.high⟩
  unfold ipcReplyHandler
  dsimp only
  split
  · by_cases hrel : s.relaunched a = true
    · rw [if_pos hrel]
      obtain ⟨hr, hk⟩ := h'.relaunch
      obtain ⟨xs', hd, hkd⟩ := hr.deliver a
      exact ⟨xs', hd, fun h1 h2 => hkd (hk h1 (h2 hrel))⟩
    · rw [if_neg hrel]
      obtain ⟨xs', hd, hkd⟩ := h'.deliver a
      exact ⟨xs', hd, fun h1 _ => hkd h1⟩
  · exact ⟨xs, h'.congr ⟨rfl, rfl, rfl, rfl, rfl⟩ ⟨rfl, rfl⟩ ⟨h.low, h.high⟩, fun hk _ => hk⟩

/-- **No send is lost**: the reply to a relaunch does not find its acknowledge gone and requests pending, unless the next acknowledge
comes with it or a post is about to look at the mailbox. -/
def ipcSendDue (s : IpcSys R) : IpcEvent R → Prop
  | .interrupt (some a) false => s.relaunched a = true → s.mailboxack = 0 → s.cnt = 0 ∨ 0 < s.posting
  | _ => True

instance (s : IpcSys R) : ∀ e, Decidable (ipcSendDue s e)
  | .interrupt (some _) false => inferInstanceAs (Decidable (_ → _ → _))
  | .interrupt (some _) true => inferInstanceAs (Decidable True)
  | .interrupt none _ => inferInstanceAs (Decidable True)
  | .queue .. => inferInstanceAs (Decidable True)
  | .kick => inferInstanceAs (Decidable True)
  | .sync .. => inferInstanceAs (Decidable True)

theorem IpcInv.interrupt (h : IpcInv s xs) (reply : Option (IpcReply R)) (ack : Bool) (hok : ipcSendDue s (.interrupt reply ack)) :
    ∃ xs', IpcInv (ipcInterruptHandler s reply ack) xs' := by
  unfold ipcInterruptHandler
  dsimp only
  cases ack with
  | true =>
    rw [if_pos rfl]
    cases reply with
    | none =>
      obtain ⟨xs', hi, -⟩ := h.toIpcRing.ack
      exact ⟨xs', hi⟩
    | some a =>
      obtain ⟨xs₁, hr, -⟩ := h.toIpcRing.reply a
      obtain ⟨xs', hi, -⟩ := hr.ack
      exact ⟨xs', hi⟩
  | false =>
    rw [if_neg (by simp)]
    cases reply with
    | none => exact ⟨xs, h⟩
    | some a =>
      obtain ⟨xs', hr, hk⟩ := h.toIpcRing.reply a
      refine ⟨xs', hr, hk h.kick fun h1 h2 => ?_⟩
      refine (hok h1 h2).imp_left fun hc => ?_
      rw [h.cnt] at hc
      exact List.length_eq_zero_iff.1 hc

/-! ## Runs -/

omit [DecidableEq R] in
theorem ipcStart_inv (req : R → IpcReq) : IpcInv (ipcStart req) [] := by
  refine ⟨⟨⟨Nat.zero_le _, Nat.succ_pos 15, fun i y hy => by cases hy⟩, rfl, Nat.two_pow_pos 32, rfl, rfl, ?_, le_refl _⟩,
    fun hne => absurd rfl hne⟩
  show (-1 : Int) ≤ 1
  decide

theorem IpcInv.step (h : IpcInv s xs) {e : IpcEvent R} (he : (ipcSystem.restrict ipcSendDue).enabled s e) :
    ∃ xs', IpcInv (ipcNext s e) xs' := by
  cases e with
  | queue r q =>
    rw [ipcNext]
    exact h.queue r q
  | kick =>
    rw [ipcNext]
    obtain ⟨xs', hi, -⟩ := h.toIpcRing.asyncKick
    exact ⟨xs', hi⟩
  | sync r q =>
    rw [ipcNext]
    exact h.sync r q
  | interrupt reply ack =>
    rw [ipcNext]
    exact h.interrupt reply ack he.2

theorem IpcRing.drain : ∀ (n : Nat) {s : IpcSys R} {xs : List R}, IpcRing s xs → 3 * xs.length + (1 - s.mailboxack).toNat ≤ n →
    ∃ k, IpcRing (ipcSystem.run s (List.replicate k (.interrupt none true))) [] := by
  intro n
  induction n with
  | zero =>
    intro s xs h hn
    have hnil : xs = [] := List.length_eq_zero_iff.1 (by omega)
    exact ⟨0, hnil ▸ h⟩
  | succ n ih =>
    intro s xs h hn
    cases xs with
    | nil => exact ⟨0, h⟩
    | cons r xs =>
      obtain ⟨xs', hi, hlt⟩ := h.ack
      obtain ⟨k, hk⟩ := ih hi.toIpcRing (by have := hlt (by simp); omega)
      exact ⟨k + 1, hk⟩

/-- **What the ring owes its users**: the requests written to the mailbox are the first of those accepted, each once and in order; the
others, at most 16, are in the ring's slots; and unless a post is under way, a pending request means that an acknowledge is awaited. -/
structure IpcSound (s : IpcSys R) (xs : List R) : Prop where
  order : s.accepted = s.mailbox ++ xs
  slots : Holds 16 s.reqs s.reqSendNo xs
  cnt : s.cnt = xs.length
  awaited : xs ≠ [] → s.posting = 0 → s.mailboxack ≤ 0

/-- **The request ring**, on every run that loses no send: it is sound, and the acknowledges to come send all that was accepted. -/
theorem ipc_request_ring {req : R → IpcReq} {es : List (IpcEvent R)} (hl : (ipcSystem.restrict ipcSendDue).Legal (ipcStart req) es) :
    (∃ xs, IpcSound (ipcSystem.run (ipcStart req) es) xs) ∧
      ∃ k, (ipcSystem.run (ipcStart req) (es ++ List.replicate k (.interrupt none true))).mailbox =
        (ipcSystem.run (ipcStart req) (es ++ List.replicate k (.interrupt none true))).accepted := by
  obtain ⟨xs, h⟩ := hl.invariant (I := fun s => ∃ xs, IpcInv s xs) (fun _ _ ⟨_, hs⟩ he => hs.step he) ⟨[], ipcStart_inv req⟩
  refine ⟨⟨xs, h.order, h.holds, h.cnt, fun hne hp => ?_⟩, ?_⟩
  · by_contra hpos
    have : 0 < _ := h.kick hne (Int.not_le.1 hpos)
    have hp' : ((ipcSystem.restrict ipcSendDue).run (ipcStart req) es).posting = 0 := hp
    omega
  · obtain ⟨k, hk⟩ := h.toIpcRing.drain _ (le_refl _)
    refine ⟨k, ?_⟩
    rw [System.run_append]
    have := hk.order
    rw [List.append_nil] at this
    exact this.symm

end Ring

/-- A request of a plain command, and a relaunch. -/
def ipcPlain : IpcReq := ⟨0, 0, false, 0, false⟩
def ipcReboot : IpcReq := ⟨0, 0, false, relnchRelaunch, false⟩

/-- Requests around a relaunch whose reply comes before its second acknowledge. -/
theorem ipc_request_ring_sample :
    ∃ xs, IpcSound (ipcSystem.run (ipcStart fun _ : Fin 3 => ipcPlain)
      [.sync 0 ipcReboot, .queue 1 ipcPlain, .sync 2 ipcPlain, .kick, .interrupt (some ⟨0, iosIoctlv, 0, []⟩) false,
        .interrupt none true, .interrupt (some ⟨1, 1, 0, []⟩) true]) xs := by
  refine (ipc_request_ring ?_).1
  decide +kernel

/-- The acknowledge of a relaunch and then its reply leave a request pending with the mailbox idle. -/
theorem ipc_relaunch_loses_send :
    ipcSystem.Legal (ipcStart fun _ : Fin 2 => ipcPlain)
        [.sync 0 ipcReboot, .sync 1 ipcPlain, .interrupt none true, .interrupt (some ⟨0, iosIoctlv, 0, []⟩) false] ∧
      ¬ ∃ xs, IpcSound (ipcSystem.run (ipcStart fun _ : Fin 2 => ipcPlain)
        [.sync 0 ipcReboot, .sync 1 ipcPlain, .interrupt none true, .interrupt (some ⟨0, iosIoctlv, 0, []⟩) false]) xs := by
  refine ⟨by decide +kernel, ?_⟩
  obtain ⟨s, hs⟩ : ∃ s, s = ipcSystem.run (ipcStart fun _ : Fin 2 => ipcPlain)
    [.sync 0 ipcReboot, .sync 1 ipcPlain, .interrupt none true, .interrupt (some ⟨0, iosIoctlv, 0, []⟩) false] := ⟨_, rfl⟩
  have hack : s.mailboxack = 1 ∧ s.posting = 0 ∧ s.cnt = 1 := by rw [hs]; decide +kernel
  rw [← hs]
  rintro ⟨xs, h⟩
  have hne : xs ≠ [] := by
    rintro rfl
    have := h.cnt
    rw [hack.2.2] at this
    cases this
  have := h.awaited hne hack.2.1
  omega

end Libogc
