import Libogc.Lib.Runs
import Libogc.Lib.Words
import Libogc.Lwp.Queue
import Mathlib.Data.Fintype.Card
/-!
# Arqueue — `arqueue.c`

The queue of transfers between main memory and ARAM.  There is one DMA engine: a request of high priority is transferred whole, one
of low priority in chunks, between which those of high priority go first.  A request that was started is no longer on its queue;
`pendingHi` and `pendingLo` point at it.

The handler of the interrupt is cut where it runs a callback: what the callback does are events of their own, and `resume` is its
return.  The history below the variables is what the theorems are about; no function of the source reads it.
-/
namespace Libogc

open Links Runs

inductive ArqQ where
  | lo
  | hi
  deriving DecidableEq, Repr

inductive ArqTask where
  | ready
  | running
  | finished
  deriving DecidableEq, Repr

inductive ArqCallback where
  | dummy
  | sync
  | user (cb : Nat)
  deriving DecidableEq, Repr

structure ArqRequest where
  owner : Nat
  dir : Nat
  prio : Nat
  state : ArqTask
  aramAddr : Nat
  mramAddr : Nat
  len : Nat
  callback : ArqCallback
  deriving DecidableEq, Repr

def arqPrioLo : Nat := 0

/-- What a request was posted with. -/
structure ArqPost where
  prio : Nat
  dir : Nat
  aramAddr : Nat
  mramAddr : Nat
  len : Nat
  deriving DecidableEq, Repr

/-- A call of `AR_StartDMA`: the posting it is for, its arguments, and what was going on: the number of DMAs not yet complete,
whether the request had been removed, and the oldest posting of high priority that was still waiting. -/
structure ArqXfer where
  post : Nat
  dir : Nat
  memaddr : Nat
  aramaddr : Nat
  len : Nat
  busy : Nat
  dropped : Bool
  oldest : Option Nat
  deriving DecidableEq, Repr

structure ArqSys (R : Type) where
  links : Mem ArqQ R
  req : R → ArqRequest
  pendingLo : Option R
  pendingHi : Option R
  callbackLo : Option ArqCallback
  callbackHi : Option ArqCallback
  chunkSize : Nat
  /-- The DMAs started and not yet complete. -/
  busy : Nat
  /-- The callback that is running. -/
  inCallback : Option ArqQ
  /-- The postings, each request's last one, the DMAs in the order they were started, and the postings whose callback was run. -/
  posts : List ArqPost
  post : R → Nat
  log : List ArqXfer
  called : List Nat
  /-- Posted, and neither started nor removed; removed, and not posted since. -/
  waiting : R → Bool
  dropped : R → Bool

variable {R : Type} [DecidableEq R]

def ArqPost.isHi (p : ArqPost) : Bool := p.prio ≠ arqPrioLo

/-- The oldest posting of high priority of which no DMA was started. -/
def arqOldest (posts : List ArqPost) (log : List ArqXfer) : Option Nat :=
  (List.range posts.length).find? fun k => posts[k]?.any (·.isHi) ∧ ∀ x ∈ log, x.post ≠ k

def ArqSys.setReq (s : ArqSys R) (r : R) (f : ArqRequest → ArqRequest) : ArqSys R :=
  { s with req := Function.update s.req r (f (s.req r)) }

/-- `AR_StartDMA`, for the request `r`. -/
def arStartDMA (s : ArqSys R) (r : R) (dir memaddr aramaddr len : Nat) : ArqSys R :=
  { s with busy := s.busy + 1
           log := s.log ++ [⟨s.post r, dir, memaddr, aramaddr, len, s.busy, s.dropped r, arqOldest s.posts s.log⟩]
           waiting := Function.update s.waiting r false }

def ArqRequest.setState (v : ArqTask) (q : ArqRequest) : ArqRequest := { q with state := v }

/-- What is left of a request after a chunk of it. -/
def ArqRequest.advance (n : Nat) (q : ArqRequest) : ArqRequest :=
  { q with len := q.len - n, aramAddr := u32 (q.aramAddr + n), mramAddr := u32 (q.mramAddr + n) }

/-- `__ARQPopTaskQueueHi` once it has a request. -/
def arqStartHi (s : ArqSys R) (r : R) : ArqSys R :=
  let s := s.setReq r (.setState .running)
  let q := s.req r
  let s := arStartDMA s r q.dir q.mramAddr q.aramAddr q.len
  { s with callbackHi := some q.callback, pendingHi := some r }

def arqPopTaskQueueHi (s : ArqSys R) : ArqSys R :=
  let got := lwpQueueGetI s.links .hi
  match got.2 with
  | .node r => arqStartHi { s with links := got.1 } r
  | _ => { s with links := got.1 }

/-- `__ARQServiceQueueLo` once it has a request. -/
def arqServiceLo (s : ArqSys R) (r : R) : ArqSys R :=
  let s := s.setReq r (.setState .running)
  let q := s.req r
  if q.len ≤ s.chunkSize then { arStartDMA s r q.dir q.mramAddr q.aramAddr q.len with callbackLo := some q.callback }
  else (arStartDMA s r q.dir q.mramAddr q.aramAddr s.chunkSize).setReq r (.advance s.chunkSize)

def arqServiceQueueLo (s : ArqSys R) : ArqSys R :=
  match s.pendingLo with
  | some r => arqServiceLo s r
  | none =>
    let got := lwpQueueGetI s.links .lo
    match got.2 with
    | .node r => arqServiceLo { s with links := got.1, pendingLo := some r } r
    | _ => { s with links := got.1 }

/-- What the post path and the interrupt have in common: the next DMA, of high priority first. -/
def arqNextDMA (s : ArqSys R) : ArqSys R :=
  let s := arqPopTaskQueueHi s
  if s.pendingHi = none then arqServiceQueueLo s else s

/-- `__ARInterruptServiceRoutine` up to a callback. -/
def arqComplete (s : ArqSys R) : ArqSys R :=
  let s := { s with busy := s.busy - 1 }
  match s.callbackHi, s.pendingHi, s.callbackLo, s.pendingLo with
  | some _, some r, _, _ =>
    { s.setReq r (.setState .finished) with called := s.called ++ [s.post r], inCallback := some .hi }
  | none, _, some _, some r =>
    { s.setReq r (.setState .finished) with called := s.called ++ [s.post r], inCallback := some .lo }
  | _, _, _, _ => arqNextDMA s

/-- The rest of it. -/
def arqResume (s : ArqSys R) : ArqSys R :=
  match s.inCallback with
  | some .hi => arqNextDMA { s with pendingHi := none, callbackHi := none, inCallback := none }
  | some .lo => arqNextDMA { s with pendingLo := none, callbackLo := none, inCallback := none }
  | none => s

/-- A new posting of a request goes on the record. -/
def ArqSys.record (s : ArqSys R) (r : R) (p : ArqPost) : ArqSys R :=
  { s with posts := s.posts ++ [p], post := Function.update s.post r s.posts.length
           waiting := Function.update s.waiting r true, dropped := Function.update s.dropped r false }

def arqPostRequestAsync (s : ArqSys R) (r : R) (owner dir prio aramAddr mramAddr len : Nat) (cb : Option ArqCallback) : ArqSys R :=
  let s := s.setReq r fun _ => (⟨owner, dir, prio, .ready, aramAddr, mramAddr, len, cb.getD .dummy⟩ : ArqRequest)
  let s := s.record r ⟨prio, dir, aramAddr, mramAddr, len⟩
  let s := { s with links := lwpQueueAppendI s.links (if prio = arqPrioLo then .lo else .hi) r }
  if s.pendingLo = none ∧ s.pendingHi = none then arqNextDMA s else s

def arqFlushQueue (s : ArqSys R) : ArqSys R :=
  { s with links := lwpQueueInitEmpty (lwpQueueInitEmpty s.links .lo) .hi
           pendingLo := if s.callbackLo = none then none else s.pendingLo
           waiting := fun _ => false, dropped := fun _ => true }

def arqRemoveRequest (s : ArqSys R) (r : R) : ArqSys R :=
  { s with links := lwpQueueExtractI s.links r
           pendingLo := if s.pendingLo = some r ∧ s.callbackLo = none then none else s.pendingLo
           waiting := Function.update s.waiting r false, dropped := Function.update s.dropped r true }

/-- A loop of `ARQ_RemoveOwnerRequest`: the links, where it stopped, and the count. -/
def arqRemoveOwned (req : R → ArqRequest) (owner : Nat) : Nat → Mem ArqQ R → Link ArqQ R → Nat → Mem ArqQ R × Link ArqQ R × Nat
  | fuel + 1, m, .node r, cnt =>
    if (req r).owner = owner then
      let m := lwpQueueExtractI m r
      arqRemoveOwned req owner fuel m (m (.next r)) (cnt + 1)
    else arqRemoveOwned req owner fuel m (m (.next r)) cnt
  | _, m, l, cnt => (m, l, cnt)

def arqRemoveOwnerRequest [Fintype R] (s : ArqSys R) (owner : Nat) : ArqSys R × Nat :=
  let hi := arqRemoveOwned s.req owner (Fintype.card R) s.links (s.links (.first .hi)) 0
  let lo := arqRemoveOwned s.req owner (Fintype.card R) hi.1 (hi.1 (.first .lo)) hi.2.2
  ({ s with links := lo.1
            pendingLo := if s.pendingLo.map Link.node = some lo.2.1 ∧ s.callbackLo = none then none else s.pendingLo
            waiting := fun r => s.waiting r && (s.req r).owner ≠ owner
            dropped := fun r => s.dropped r || (s.req r).owner = owner }, lo.2.2)

/-! ## The system -/

inductive ArqEvent (R : Type) where
  | post (r : R) (owner dir prio aramAddr mramAddr len : Nat) (cb : Option ArqCallback)
  | complete
  | resume
  | remove (r : R)
  | removeOwner (owner : Nat)
  | flush
  deriving DecidableEq, Repr

def arqNext [Fintype R] (s : ArqSys R) : ArqEvent R → ArqSys R
  | .post r owner dir prio aramAddr mramAddr len cb => arqPostRequestAsync s r owner dir prio aramAddr mramAddr len cb
  | .complete => arqComplete s
  | .resume => arqResume s
  | .remove r => arqRemoveRequest s r
  | .removeOwner owner => (arqRemoveOwnerRequest s owner).1
  | .flush => arqFlushQueue s

/-- A request is posted when it is neither queued nor in flight; a callback's own request is not in flight any more.  The arguments are
words of 32 bits.  Interrupts follow the DMAs. -/
def arqGuard (s : ArqSys R) : ArqEvent R → Prop
  | .post r _ _ _ aramAddr mramAddr len _ => 0 < len ∧ len < 2 ^ 32 ∧ aramAddr < 2 ^ 32 ∧ mramAddr < 2 ^ 32 ∧ s.waiting r = false ∧
      (s.pendingHi = some r → s.inCallback = some .hi) ∧ (s.pendingLo = some r → s.inCallback = some .lo)
  | .complete => 0 < s.busy ∧ s.inCallback = none
  | .resume => s.inCallback ≠ none
  | _ => True

instance (s : ArqSys R) : ∀ e, Decidable (arqGuard s e)
  | .post .. => inferInstanceAs (Decidable (_ ∧ _))
  | .complete => inferInstanceAs (Decidable (_ ∧ _))
  | .resume => inferInstanceAs (Decidable (_ ≠ _))
  | .remove _ => inferInstanceAs (Decidable True)
  | .removeOwner _ => inferInstanceAs (Decidable True)
  | .flush => inferInstanceAs (Decidable True)

/-- **The ARAM queue, its users and the DMA engine.** -/
def arqSystem [Fintype R] : System (ArqSys R) (ArqEvent R) where
  enabled := arqGuard
  next := arqNext

instance [Fintype R] (s : ArqSys R) (e : ArqEvent R) : Decidable (arqSystem.enabled s e) :=
  inferInstanceAs (Decidable (arqGuard s e))

/-- After `ARQ_Init`, on whatever the requests held, with a chunk size. -/
def arqStart (links : Mem ArqQ R) (req : R → ArqRequest) (chunkSize : Nat) : ArqSys R where
  links := lwpQueueInitEmpty (lwpQueueInitEmpty links .lo) .hi
  req := req
  pendingLo := none
  pendingHi := none
  callbackLo := none
  callbackHi := none
  chunkSize := chunkSize
  busy := 0
  inCallback := none
  posts := []
  post := fun _ => 0
  log := []
  called := []
  waiting := fun _ => false
  dropped := fun _ => false

end Libogc
