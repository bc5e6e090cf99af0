import Libogc.Aram.ArqueueRuns
import Libogc.Lib.Rounding
/-!
# ArqueueChunks — `ARQ_SetChunkSize`

How many interrupts a request of low priority takes that has the engine for itself.  After the first chunk each interrupt starts the next
one, and what is left shrinks by the chunk size: it gets nowhere when the rounded size is zero.
-/
namespace Libogc

open Links Runs

variable {R : Type} [DecidableEq R] {s : ArqSys R} {r : R} {n : Nat}

def arqSetChunkSize (s : ArqSys R) (size : Nat) : ArqSys R := { s with chunkSize := roundDown (u32 (size + 31)) 32 }

/-- The bytes of the DMAs that were started. -/
def ArqSys.started (s : ArqSys R) : Nat := (s.log.map ArqXfer.len).sum

/-- After `n` interrupts. -/
def arqInterrupts [Fintype R] (s : ArqSys R) (n : Nat) : ArqSys R := arqSystem.run s (List.replicate n .complete)

/-- **Nothing is posted**: both queues are empty and the engine is free. -/
structure ArqIdle (s : ArqSys R) : Prop where
  rep : Rep s.links (arqQs [] [])
  pending : s.pendingLo = none ∧ s.pendingHi = none
  callback : s.callbackLo = none ∧ s.callbackHi = none
  free : s.busy = 0 ∧ s.inCallback = none

/-- **A request is served by `n` interrupts**: the last runs its callback, and each one before starts a transfer of more bytes. -/
structure ArqServed [Fintype R] (s : ArqSys R) (r : R) (n : Nat) : Prop where
  legal : arqSystem.Legal s (List.replicate n .complete)
  called : (arqInterrupts s n).called = s.called ++ [s.post r]
  progress : ∀ k, k + 1 < n → (arqInterrupts s k).started < (arqInterrupts s (k + 1)).started

/-! ## A request that has the engine for itself -/

/-- **A chunk is in flight**, the last one when `callbackLo` is set. -/
structure ArqGoing (s : ArqSys R) (r : R) : Prop where
  rep : Rep s.links (arqQs [] [])
  pending : s.pendingLo = some r ∧ s.pendingHi = none
  callback : s.callbackHi = none
  busy : s.busy = 1 ∧ s.inCallback = none

/-- The rounded size is zero when there was nothing to round, and when it wraps. -/
theorem arqChunkSize_iff {size : Nat} (hs : size < 2 ^ 32) : 0 < roundDown (u32 (size + 31)) 32 ↔ 1 ≤ size ∧ size ≤ 2 ^ 32 - 32 := by
  unfold roundDown u32
  omega

theorem arqChunkSize_ge {size : Nat} (hpos : 0 < roundDown (u32 (size + 31)) 32) : 32 ≤ roundDown (u32 (size + 31)) 32 :=
  Nat.le_of_dvd hpos dvd_roundDown

omit [DecidableEq R] in
theorem ArqSys.started_append {s s' : ArqSys R} {x : ArqXfer} (h : s'.log = s.log ++ [x]) {len : Nat} (hx : x.len = len) :
    s'.started = s.started + len := by
  unfold ArqSys.started
  rw [h, List.map_append, List.sum_append, List.map_singleton, List.sum_singleton, hx]

theorem arqServiceLo_spec (hr : Rep s.links (arqQs [] [])) (hp : s.pendingLo = some r ∧ s.pendingHi = none)
    (hc : s.callbackLo = none ∧ s.callbackHi = none) (hb : s.busy = 0 ∧ s.inCallback = none) :
    ArqGoing (arqServiceLo s r) r ∧ (arqServiceLo s r).called = s.called ∧ (arqServiceLo s r).post = s.post ∧
      (arqServiceLo s r).chunkSize = s.chunkSize ∧
      (((s.req r).len ≤ s.chunkSize ∧ (arqServiceLo s r).callbackLo.isSome ∧
        (arqServiceLo s r).started = s.started + (s.req r).len) ∨
      (s.chunkSize < (s.req r).len ∧ (arqServiceLo s r).callbackLo = none ∧
        (arqServiceLo s r).started = s.started + s.chunkSize ∧
        ((arqServiceLo s r).req r).len = (s.req r).len - s.chunkSize)) := by
  have hlen : ((s.setReq r (.setState .running)).req r).len = (s.req r).len := by
    rw [setReq_req_self]
    rfl
  have hbusy : s.busy + 1 = 1 := by rw [hb.1]
  unfold arqServiceLo
  dsimp only
  rw [hlen]
  by_cases hle : (s.req r).len ≤ s.chunkSize
  · rw [if_pos (show (s.req r).len ≤ (s.setReq r (.setState .running)).chunkSize from hle)]
    exact ⟨⟨hr, hp, hc.2, hbusy, hb.2⟩, rfl, rfl, rfl, .inl ⟨hle, rfl, ArqSys.started_append rfl rfl⟩⟩
  · rw [if_neg (show ¬ (s.req r).len ≤ (s.setReq r (.setState .running)).chunkSize from hle)]
    refine ⟨⟨hr, hp, hc.2, hbusy, hb.2⟩, rfl, rfl, rfl, .inr ⟨Nat.lt_of_not_le hle, hc.1, ArqSys.started_append rfl rfl, ?_⟩⟩
    rw [setReq_req_self]
    exact congrArg (· - s.chunkSize) hlen

theorem ArqGoing.complete (h : ArqGoing s r) (hc : s.callbackLo = none) : arqComplete s = arqServiceLo { s with busy := 0 } r := by
  obtain ⟨hplo, hphi⟩ := h.pending
  have hnext : arqNextDMA { s with busy := 0 } = arqServiceLo { s with busy := 0 } r := by
    rw [arqNextDMA_lo (s := { s with busy := 0 }) h.rep hphi]
    unfold arqServiceQueueLo
    dsimp only
    rw [hplo]
  have hbusy : s.busy - 1 = 0 := by rw [h.busy.1]
  unfold arqComplete
  rw [hbusy]
  dsimp only
  split
  · rename_i hcb _
    rw [h.callback] at hcb
    cases hcb
  · rename_i hcb _
    rw [hc] at hcb
    cases hcb
  · exact hnext

theorem ArqIdle.post (h : ArqIdle s) (r : R) (owner dir aramAddr mramAddr len : Nat) (cb : Option ArqCallback) :
    ∃ s₁ : ArqSys R, arqPostRequestAsync s r owner dir arqPrioLo aramAddr mramAddr len cb = arqServiceLo s₁ r ∧
      Rep s₁.links (arqQs [] []) ∧ (s₁.pendingLo = some r ∧ s₁.pendingHi = none) ∧
      (s₁.callbackLo = none ∧ s₁.callbackHi = none) ∧ (s₁.busy = 0 ∧ s₁.inCallback = none) ∧ s₁.called = s.called ∧
      s₁.chunkSize = s.chunkSize ∧ (s₁.req r).len = len := by
  have hrep : Rep (lwpQueueAppendI s.links .lo r) (arqQs [] [r]) := by
    have hfree : Free (arqQs ([] : List R) []) r := fun q xs hq => by
      cases q <;> cases hq <;> simp
    have happ := lwpQueueAppendI_rep (q := .lo) h.rep rfl hfree
    rw [arqQs_lo] at happ
    exact happ
  have hget := (lwpQueueGetI_cons hrep (q := .lo) rfl).1
  rw [arqQs_lo] at hget
  obtain ⟨s₀, hs₀⟩ : ∃ s₀ : ArqSys R, s₀ = { (s.setReq r fun _ =>
      (⟨owner, dir, arqPrioLo, .ready, aramAddr, mramAddr, len, cb.getD .dummy⟩ : ArqRequest)).record r
        ⟨arqPrioLo, dir, aramAddr, mramAddr, len⟩ with links := lwpQueueAppendI s.links .lo r } := ⟨_, rfl⟩
  have he : arqPostRequestAsync s r owner dir arqPrioLo aramAddr mramAddr len cb = arqNextDMA s₀ := by
    rw [hs₀]
    exact if_pos h.pending
  have hrep₀ : Rep s₀.links (arqQs [] [r]) := by rw [hs₀]; exact hrep
  have hp₀ : s₀.pendingLo = none ∧ s₀.pendingHi = none := by rw [hs₀]; exact h.pending
  rw [he, arqNextDMA_lo hrep₀ hp₀.2, arqServiceQueueLo_cons hrep₀ hp₀.1, hs₀]
  refine ⟨_, rfl, hget, ⟨rfl, h.pending.2⟩, h.callback, h.free, rfl, rfl, ?_⟩
  show (Function.update s.req r _ r).len = len
  rw [Function.update_self]

/-! ## Interrupts -/

section Served
variable [Fintype R]

theorem arqInterrupts_succ (s : ArqSys R) (n : Nat) : arqInterrupts s (n + 1) = arqInterrupts (arqComplete s) n := rfl

theorem ArqGoing.enabled (h : ArqGoing s r) : arqSystem.enabled s (.complete : ArqEvent R) :=
  ⟨by rw [h.busy.1]; exact Nat.one_pos, h.busy.2⟩

theorem ArqGoing.served_last (h : ArqGoing s r) (hc : s.callbackLo.isSome) : ArqServed s r 1 := by
  obtain ⟨cb, hcb⟩ := Option.isSome_iff_exists.1 hc
  refine ⟨⟨h.enabled, trivial⟩, ?_, fun k hk => by omega⟩
  rw [arqInterrupts_succ]
  show (arqComplete s).called = _
  unfold arqComplete
  dsimp only
  rw [h.callback, hcb, h.pending.1]

theorem ArqServed.cons (he : arqSystem.enabled s (.complete : ArqEvent R)) (hcalled : (arqComplete s).called = s.called)
    (hpost : (arqComplete s).post = s.post) (hstart : s.started < (arqComplete s).started) (h : ArqServed (arqComplete s) r n) :
    ArqServed s r (n + 1) := by
  refine ⟨⟨he, h.legal⟩, ?_, fun k hk => ?_⟩
  · rw [arqInterrupts_succ, h.called, hcalled, hpost]
  · cases k with
    | zero => exact hstart
    | succ k =>
      rw [arqInterrupts_succ, arqInterrupts_succ]
      exact h.progress k (by omega)

/-- **The chunks end**, when each has 32 bytes at least.  The induction is on what is left. -/
theorem ArqGoing.served_chunks (len : Nat) : ∀ {s : ArqSys R}, ArqGoing s r → s.callbackLo = none → 32 ≤ s.chunkSize →
    (s.req r).len = len → 0 < len → ∃ n ≤ (len + 31) / 32 + 1, ArqServed s r n := by
  induction len using Nat.strong_induction_on with
  | _ len ih =>
    intro s h hc h32 hlen hpos
    obtain ⟨hgo, hcalled, hpost, hsize, hcases⟩ :=
      arqServiceLo_spec (s := { s with busy := 0 }) h.rep h.pending ⟨hc, h.callback⟩ ⟨rfl, h.busy.2⟩
    rw [← h.complete hc] at hgo hcalled hpost hsize hcases
    have hstarted : ({ s with busy := 0 } : ArqSys R).started = s.started := rfl
    dsimp only at hcases
    rw [hlen, hstarted] at hcases
    rcases hcases with ⟨hle, hlast, hstart⟩ | ⟨hlt, hnone, hstart, hleft⟩
    · refine ⟨2, by omega, ArqServed.cons h.enabled hcalled hpost (by omega) (hgo.served_last hlast)⟩
    · obtain ⟨n, hn, hserved⟩ := ih (len - s.chunkSize) (by omega) hgo hnone (by rw [hsize]; exact h32) hleft (by omega)
      exact ⟨n + 1, by omega, ArqServed.cons h.enabled hcalled hpost (by omega) hserved⟩

theorem ArqGoing.stuck (n : Nat) : ∀ {s : ArqSys R}, ArqGoing s r → s.callbackLo = none → s.chunkSize = 0 → 0 < (s.req r).len →
    (arqInterrupts s n).called = s.called := by
  induction n with
  | zero => exact fun _ _ _ _ => rfl
  | succ n ih =>
    intro s h hc h0 hpos
    obtain ⟨hgo, hcalled, -, hsize, hcases⟩ :=
      arqServiceLo_spec (s := { s with busy := 0 }) h.rep h.pending ⟨hc, h.callback⟩ ⟨rfl, h.busy.2⟩
    rw [← h.complete hc] at hgo hcalled hsize hcases
    dsimp only at hcases
    rcases hcases with ⟨hle, -⟩ | ⟨-, hnone, -, hleft⟩
    · omega
    · rw [arqInterrupts_succ, ih hgo hnone (hsize.trans h0) (by omega)]
      exact hcalled

/-- **A request of low priority is served**, when nothing else is posted, exactly when it is empty or the chunk size rounds to more than
zero: then `len / 32 + 1` interrupts are enough, rounded up. -/
theorem arq_chunk_progress (h : ArqIdle s) {size len : Nat} (hsize : size < 2 ^ 32) (r : R) (owner dir aramAddr mramAddr : Nat)
    (cb : Option ArqCallback) :
    (∃ n ≤ (len + 31) / 32 + 1,
      ArqServed (arqPostRequestAsync (arqSetChunkSize s size) r owner dir arqPrioLo aramAddr mramAddr len cb) r n) ↔
      len = 0 ∨ (1 ≤ size ∧ size ≤ 2 ^ 32 - 32) := by
  have hidle : ArqIdle (arqSetChunkSize s size) := ⟨h.rep, h.pending, h.callback, h.free⟩
  obtain ⟨s₁, he, hr, hp, hc, hb, hcalled₁, hchunk, hlen⟩ := hidle.post r owner dir aramAddr mramAddr len cb
  obtain ⟨hgo, hcalled, -, hsize₁, hcases⟩ := arqServiceLo_spec hr hp hc hb
  rw [he, ← arqChunkSize_iff hsize]
  rw [hchunk, hlen] at hcases
  rw [hchunk] at hsize₁
  have hcs : (arqSetChunkSize s size).chunkSize = roundDown (u32 (size + 31)) 32 := rfl
  rw [hcs] at hcases hsize₁
  constructor
  · rintro ⟨n, -, hs⟩
    by_contra hn
    obtain ⟨hne, hzero⟩ := not_or.1 hn
    rcases hcases with ⟨hle, -⟩ | ⟨-, hnone, -, hleft⟩
    · omega
    · have hstuck := hgo.stuck n hnone (by omega) (by omega)
      rw [hs.called] at hstuck
      exact absurd (congrArg List.length hstuck) (by simp)
  · intro hpos
    rcases hcases with ⟨-, hlast, -⟩ | ⟨hlt, hnone, -, hleft⟩
    · exact ⟨1, by omega, hgo.served_last hlast⟩
    · have h32 := arqChunkSize_ge (hpos.resolve_left (by omega))
      obtain ⟨n, hn, hs⟩ := ArqGoing.served_chunks _ hgo hnone (by omega) hleft (by omega)
      exact ⟨n, by omega, hs⟩

end Served

/-- A queue of one request, which nobody has posted yet. -/
def arqOne : ArqSys (Fin 1) := arqStart (fun _ => .null) (fun _ => ⟨0, 0, 0, .ready, 0, 0, 0, .dummy⟩) 4096

theorem arqOne_idle : ArqIdle arqOne :=
  ⟨(arqStart_inv _ _ _).rep, ⟨rfl, rfl⟩, ⟨rfl, rfl⟩, rfl, rfl⟩

/-- Chunks of 64 bytes. -/
theorem arq_chunk_progress_two :
    (∃ n ≤ (100 + 31) / 32 + 1, ArqServed (arqPostRequestAsync (arqSetChunkSize arqOne 40) 0 0 0 arqPrioLo 0 0 100 none) 0 n) ↔
      100 = 0 ∨ (1 ≤ 40 ∧ 40 ≤ 2 ^ 32 - 32) :=
  arq_chunk_progress arqOne_idle (by decide) 0 0 0 0 0 none

/-- With a chunk size of zero the request is transferred forever, no byte at a time. -/
theorem arq_chunk_stuck :
    ¬ ∃ n ≤ (64 + 31) / 32 + 1, ArqServed (arqPostRequestAsync (arqSetChunkSize arqOne 0) 0 0 0 arqPrioLo 0 0 64 none) 0 n := by
  rintro ⟨n, hn, hs⟩
  have hcalled := hs.called
  obtain rfl | rfl | rfl | rfl : n = 0 ∨ n = 1 ∨ n = 2 ∨ n = 3 := by omega
  all_goals exact absurd hcalled (by decide +kernel)

end Libogc
