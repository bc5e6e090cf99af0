import Libogc.Exi.Exi
/-!
# ExiRuns — no thread asleep without a node that will wake it

`ExiInv` reads the links as the free list and three lists of waiters.  Each list of waiters is what the channel was left and has not
called back, and holds an `__exi_unlockedhandler` for each thread asleep.
-/
namespace Libogc

open Links Runs

def exiLists (free : List Nat) (q : ExiChan → List Nat) : ExiQ → Option (List Nat)
  | .free => some free
  | .chan ch => some (q ch)

theorem exiLists_free (free xs : List Nat) (q : ExiChan → List Nat) :
    Function.update (exiLists free q) .free (some xs) = exiLists xs q := by
  funext x
  cases x <;> rfl

theorem exiLists_chan (free xs : List Nat) (q : ExiChan → List Nat) (ch : ExiChan) :
    Function.update (exiLists free q) (.chan ch) (some xs) = exiLists free (Function.update q ch xs) := by
  funext x
  cases x with
  | free => rfl
  | chan c =>
    by_cases hc : c = ch
    · subst hc
      simp [exiLists]
    · simp [exiLists, hc]

def ExiLckDev.isHandler (d : ExiLckDev) : Bool := d.unlockcb = some .unlockedhandler

section Inv
variable {T : Type} {s : ExiSys T} {free : List Nat} {q : ExiChan → List Nat} {ch : ExiChan} {dev : Nat} {t : T}

/-- The threads on a channel's thread queue, the longest asleep first. -/
def ExiSys.sleepers (s : ExiSys T) (ch : ExiChan) : List T := (s.unlockqueue ch).getD []

/-- The queued nodes that wake a thread. -/
def ExiSys.handlers (s : ExiSys T) (xs : List Nat) : Nat := xs.countP fun n => (s.lckdevs n).isHandler

/-- **Where the nodes are.** -/
structure ExiNodes (s : ExiSys T) (free : List Nat) (q : ExiChan → List Nat) : Prop where
  rep : Rep s.links (exiLists free q)
  all : ∀ n, n < exiLockDevs ↔ ∃ x, n ∈ held (exiLists free q) x
  count : free.length + ∑ ch, (q ch).length = exiLockDevs
  fifo : ∀ ch, s.posts ch = s.ran ch ++ (q ch).map s.lckdevs
  cb : ∀ ch, ∀ n ∈ q ch, (s.lckdevs n).unlockcb ≠ none

/-- **Who sleeps where.** -/
structure ExiSleep (s : ExiSys T) : Prop where
  nodup : ∀ ch, (s.sleepers ch).Nodup
  mem : ∀ ch t, t ∈ s.sleepers ch ↔ ∃ dev, s.thread t = .asleep ch dev

structure ExiInv (s : ExiSys T) (free : List Nat) (q : ExiChan → List Nat) : Prop extends ExiNodes s free q, ExiSleep s where
  enough : ∀ ch, (s.sleepers ch).length ≤ s.handlers (q ch)

/-! ## Nodes -/

theorem sum_length_update (q : ExiChan → List Nat) (ch : ExiChan) (xs : List Nat) :
    (∑ c, (Function.update q ch xs c).length) + (q ch).length = (∑ c, (q c).length) + xs.length := by
  have h1 : (fun c => (Function.update q ch xs c).length) = Function.update (fun c => (q c).length) ch xs.length :=
    Function.comp_update List.length q ch xs
  rw [h1, Finset.sum_update_of_mem (Finset.mem_univ ch),
    Finset.sum_eq_add_sum_sdiff_singleton_of_mem (Finset.mem_univ ch) fun c => (q c).length]
  omega

theorem ExiNodes.outstanding (h : ExiNodes s free q) : exiOutstanding s = ∑ ch, (q ch).length := by
  unfold exiOutstanding
  apply Finset.sum_congr rfl
  intro ch _
  rw [h.fifo ch, List.length_append, List.length_map]
  omega

theorem ExiNodes.room (h : ExiNodes s free q) (hr : exiOutstanding s < exiLockDevs) : ∃ n t, free = n :: t := by
  have := h.count
  rw [h.outstanding] at hr
  cases free with
  | nil => simp at this; omega
  | cons n t => exact ⟨n, t, rfl⟩

theorem ExiNodes.notMem_chan (h : ExiNodes s free q) {n : Nat} (hn : n ∈ free) (ch : ExiChan) : n ∉ q ch := by
  intro hc
  have := @Rep.disjoint _ _ _ _ h.rep .free (.chan ch) _ _ _ rfl rfl hn hc
  cases this

variable {n : Nat} {rest : List Nat} {cb : ExiCallback}

theorem exiWait_eq (h : ExiNodes s (n :: rest) q) :
    exiWait s ch dev cb = exiEnqueue { s with links := (lwpQueueGetI s.links .free).1 } ch dev cb n := by
  obtain ⟨-, hgot⟩ := lwpQueueGetI_cons h.rep (q := .free) rfl
  unfold exiWait
  dsimp only
  rw [hgot]

theorem ExiNodes.map_update (h : ExiNodes s (n :: rest) q) (v : ExiLckDev) (c : ExiChan) :
    (q c).map (Function.update s.lckdevs n v) = (q c).map s.lckdevs := by
  apply List.map_congr_left
  intro m hm
  apply Function.update_of_ne
  rintro rfl
  exact h.notMem_chan List.mem_cons_self c hm

/-- **A waiter takes the first free node to the end of its channel's list.** -/
theorem ExiNodes.wait (h : ExiNodes s (n :: rest) q) : ExiNodes (exiWait s ch dev cb) rest (Function.update q ch (q ch ++ [n])) := by
  have hfree := h.rep.nodup (q := .free) rfl
  rw [List.nodup_cons] at hfree
  have hrep := (lwpQueueGetI_cons h.rep (q := .free) rfl).1
  have hout : Free (Function.update (exiLists (n :: rest) q) .free (some rest)) n :=
    h.rep.free_of_removed (q := .free) rfl hfree.1 List.mem_cons_self
  rw [exiLists_free] at hrep hout
  have happ := lwpQueueAppendI_rep hrep (q := .chan ch) rfl hout
  rw [exiLists_chan] at happ
  rw [exiWait_eq h]
  refine ⟨happ, fun m => ?_, ?_, fun c => ?_, fun c m hm => ?_⟩
  · rw [h.all m]
    constructor
    · rintro ⟨x, hx⟩
      cases x with
      | free =>
        rcases List.mem_cons.1 hx with rfl | hx
        · exact ⟨.chan ch, by simp [held, exiLists]⟩
        · exact ⟨.free, hx⟩
      | chan c =>
        refine ⟨.chan c, ?_⟩
        by_cases hc : c = ch
        · subst hc
          simpa [held, exiLists] using Or.inl hx
        · simpa [held, exiLists, hc] using hx
    · rintro ⟨x, hx⟩
      cases x with
      | free => exact ⟨.free, List.mem_cons_of_mem _ hx⟩
      | chan c =>
        by_cases hc : c = ch
        · subst hc
          simp only [held, exiLists, Function.update_self, Option.getD_some, List.mem_append, List.mem_singleton] at hx
          rcases hx with hx | rfl
          · exact ⟨.chan c, hx⟩
          · exact ⟨.free, List.mem_cons_self⟩
        · exact ⟨.chan c, by simpa [held, exiLists, hc] using hx⟩
  · have hsum := sum_length_update q ch (q ch ++ [n])
    have := h.count
    simp only [List.length_append, List.length_cons, List.length_nil] at hsum this
    omega
  · have hmap := h.map_update ⟨dev, some cb⟩ c
    by_cases hc : c = ch
    · subst hc
      simp only [exiEnqueue, Function.update_self, List.map_append, List.map_cons, List.map_nil, hmap]
      rw [h.fifo c, List.append_assoc]
    · simp only [exiEnqueue, Function.update_of_ne hc, hmap]
      exact h.fifo c
  · show (Function.update s.lckdevs n ⟨dev, some cb⟩ m).unlockcb ≠ none
    by_cases hmn : m = n
    · subst hmn
      simp
    · rw [Function.update_of_ne hmn]
      by_cases hc : c = ch
      · subst hc
        rw [Function.update_self, List.mem_append, List.mem_singleton] at hm
        exact h.cb c m (hm.resolve_right hmn)
      · rw [Function.update_of_ne hc] at hm
        exact h.cb c m hm

theorem exiWait_handlers (h : ExiNodes s (n :: rest) q) (c : ExiChan) :
    (exiWait s ch dev cb).handlers (Function.update q ch (q ch ++ [n]) c) =
      s.handlers (q c) + if c = ch ∧ cb = .unlockedhandler then 1 else 0 := by
  have hold : ∀ c, (exiWait s ch dev cb).handlers (q c) = s.handlers (q c) := by
    intro c
    rw [exiWait_eq h]
    apply List.countP_congr
    intro m hm
    have : Function.update s.lckdevs n ⟨dev, some cb⟩ m = s.lckdevs m :=
      Function.update_of_ne (fun e => h.notMem_chan (e ▸ List.mem_cons_self) c hm) ..
    simp only [exiEnqueue, this]
  by_cases hc : c = ch
  · subst hc
    rw [Function.update_self, ExiSys.handlers, List.countP_append, ← ExiSys.handlers, hold, exiWait_eq h]
    cases cb <;> simp [exiEnqueue, ExiLckDev.isHandler]
  · rw [Function.update_of_ne hc, hold, if_neg (fun e => hc e.1), Nat.add_zero]

theorem exiWait_sleepers (h : ExiNodes s (n :: rest) q) : (exiWait s ch dev cb).sleepers = s.sleepers ∧
    (exiWait s ch dev cb).thread = s.thread := by
  rw [exiWait_eq h]
  exact ⟨rfl, rfl⟩

theorem ExiInv.wait (h : ExiInv s (n :: rest) q) : ExiInv (exiWait s ch dev cb) rest (Function.update q ch (q ch ++ [n])) := by
  obtain ⟨hs, ht⟩ := exiWait_sleepers h.toExiNodes
  refine ⟨h.toExiNodes.wait, ⟨?_, ?_⟩, fun c => ?_⟩
  · rw [hs]
    exact h.nodup
  · rw [hs, ht]
    exact h.mem
  · rw [hs, exiWait_handlers h.toExiNodes]
    exact Nat.le_add_right_of_le (h.enough c)

/-! ## Locking -/

/-- What a lock reads and keeps of the invariant: the flags are no part of it. -/
theorem ExiInv.flags (h : ExiInv s free q) (locked : ExiChan → Bool) (lockeddev : ExiChan → Nat) :
    ExiInv { s with locked := locked, lockeddev := lockeddev } free q :=
  ⟨⟨h.rep, h.all, h.count, h.fifo, h.cb⟩, ⟨h.nodup, h.mem⟩, h.enough⟩

theorem ExiInv.lock (h : ExiInv s free q) (unlockCB : Option ExiCallback)
    (hroom : s.locked ch = true → unlockCB ≠ none → exiOutstanding s < exiLockDevs) :
    ∃ free' q', ExiInv (exiLock s ch dev unlockCB).1 free' q' := by
  unfold exiLock
  by_cases hl : s.locked ch = true
  · rw [if_pos hl]
    cases unlockCB with
    | none => exact ⟨free, q, h⟩
    | some cb =>
      obtain ⟨n, rest, rfl⟩ := h.room (hroom hl (by simp))
      exact ⟨rest, _, h.wait⟩
  · rw [if_neg hl]
    exact ⟨free, q, h.flags ..⟩

section Threads
variable [DecidableEq T]

/-- A thread that was not asleep and is not asleep now is on no thread queue. -/
theorem ExiSleep.setThread (h : ExiSleep s) {v : ExiThread} (hold : ∀ ch dev, s.thread t ≠ .asleep ch dev)
    (hnew : ∀ ch dev, v ≠ .asleep ch dev) : ExiSleep (s.setThread t v) := by
  refine ⟨h.nodup, fun ch u => ?_⟩
  refine (h.mem ch u).trans ?_
  by_cases hu : u = t
  · subst hu
    simp [ExiSys.setThread, hold, hnew]
  · simp [ExiSys.setThread, hu]

theorem ExiInv.setThread (h : ExiInv s free q) {v : ExiThread} (hold : ∀ ch dev, s.thread t ≠ .asleep ch dev)
    (hnew : ∀ ch dev, v ≠ .asleep ch dev) : ExiInv (s.setThread t v) free q :=
  ⟨⟨h.rep, h.all, h.count, h.fifo, h.cb⟩, h.toExiSleep.setThread hold hnew, h.enough⟩

theorem exiSleep_sleepers (s : ExiSys T) (t : T) (ch : ExiChan) (dev : Nat) (c : ExiChan) :
    (exiSleep s t ch dev).sleepers c = if c = ch then s.sleepers ch ++ [t] else s.sleepers c := by
  by_cases hc : c = ch
  · subst hc
    simp [ExiSys.sleepers, exiSleep]
  · simp [ExiSys.sleepers, exiSleep, hc]

theorem ExiInv.sleep (h : ExiInv s free q) (hold : ∀ ch dev, s.thread t ≠ .asleep ch dev)
    (hspare : (s.sleepers ch).length < s.handlers (q ch)) : ExiInv (exiSleep s t ch dev) free q := by
  refine ⟨⟨h.rep, h.all, h.count, h.fifo, h.cb⟩, ⟨fun c => ?_, fun c u => ?_⟩, fun c => ?_⟩
  · rw [exiSleep_sleepers]
    split
    · have hnot : t ∉ s.sleepers ch := fun hm => (h.mem ch t).1 hm |>.elim fun d hd => hold ch d hd
      exact List.nodup_append.2 ⟨h.nodup ch, by simp, by simp; rintro a ha rfl; exact hnot ha⟩
    · exact h.nodup c
  · rw [exiSleep_sleepers]
    show _ ↔ ∃ d, Function.update s.thread t (.asleep ch dev) u = .asleep c d
    by_cases hu : u = t
    · subst hu
      have hnot : ∀ c, u ∉ s.sleepers c := fun c hm => (h.mem c u).1 hm |>.elim fun d hd => hold c d hd
      by_cases hc : c = ch
      · simp [hc]
      · simp [hc, hnot, Ne.symm hc]
    · rw [Function.update_of_ne hu]
      split
      · next hc => subst hc; simp [h.mem, hu]
      · exact h.mem c u
  · show _ ≤ s.handlers (q c)
    rw [exiSleep_sleepers]
    split
    · next hc =>
      subst hc
      rw [List.length_append]
      exact hspare
    · exact h.enough c

theorem ExiInv.lockLoop (h : ExiInv s free q) (hold : ∀ ch dev, s.thread t ≠ .asleep ch dev)
    (hroom : s.locked ch = true → exiOutstanding s < exiLockDevs) : ∃ free' q', ExiInv (exiLockLoop s t ch dev) free' q' := by
  unfold exiLockLoop exiLock
  by_cases hl : s.locked ch = true
  · obtain ⟨n, rest, rfl⟩ := h.room (hroom hl)
    obtain ⟨hs, ht⟩ := exiWait_sleepers h.toExiNodes
    rw [if_pos hl]
    refine ⟨rest, _, (h.wait).sleep (fun c d => ?_) ?_⟩
    · rw [ht]
      exact hold c d
    · rw [hs, exiWait_handlers h.toExiNodes, if_pos ⟨rfl, rfl⟩]
      exact Nat.lt_succ_of_le (h.enough ch)
  · rw [if_neg hl]
    exact ⟨free, q, (h.flags ..).setThread hold (by simp)⟩

/-! ## Unlocking -/

omit [DecidableEq T] in
theorem ExiSys.sleepers_update (s : ExiSys T) (ch : ExiChan) (ts : List T) (c : ExiChan) :
    ((Function.update s.unlockqueue ch (some ts)) c).getD [] = if c = ch then ts else s.sleepers c := by
  by_cases hc : c = ch
  · subst hc
    simp
  · simp [hc, ExiSys.sleepers]

theorem exiSignal_sleepers (s : ExiSys T) (ch c : ExiChan) :
    (exiSignal s ch).sleepers c = if c = ch then (s.sleepers ch).tail else s.sleepers c := by
  unfold exiSignal
  split
  · next t ts hq =>
    have hs : s.sleepers ch = t :: ts := by rw [ExiSys.sleepers, hq]; rfl
    rw [hs]
    exact s.sleepers_update ch ts c
  · next hq =>
    have hs : s.sleepers ch = [] := by
      unfold ExiSys.sleepers
      cases hu : s.unlockqueue ch with
      | none => rfl
      | some l =>
        cases l with
        | nil => rfl
        | cons t ts => exact absurd hu (hq t ts)
    split
    · next hc => rw [hc, hs]; rfl
    · rfl

theorem exiSignal_thread (s : ExiSys T) (ch : ExiChan) :
    (exiSignal s ch).thread = match s.sleepers ch with
      | t :: _ => Function.update s.thread t (s.thread t).wake
      | [] => s.thread := by
  unfold exiSignal
  split
  · next t ts hq => rw [ExiSys.sleepers, hq]; rfl
  · next hq =>
    unfold ExiSys.sleepers
    cases hu : s.unlockqueue ch with
    | none => rfl
    | some l =>
      cases l with
      | nil => rfl
      | cons t ts => exact absurd hu (hq t ts)

theorem ExiSleep.signal (h : ExiSleep s) (ch : ExiChan) : ExiSleep (exiSignal s ch) := by
  refine ⟨fun c => ?_, fun c u => ?_⟩
  · rw [exiSignal_sleepers]
    split
    · exact (h.nodup ch).tail
    · exact h.nodup c
  · rw [exiSignal_sleepers, exiSignal_thread]
    cases hs : s.sleepers ch with
    | nil =>
      dsimp only
      split
      · next hc => rw [← h.mem, hc, hs]; rfl
      · exact h.mem c u
    | cons t ts =>
      have hnd := h.nodup ch
      rw [hs, List.nodup_cons] at hnd
      obtain ⟨d, hd⟩ := (h.mem ch t).1 (hs ▸ List.mem_cons_self)
      dsimp only [List.tail_cons]
      by_cases hu : u = t
      · subst hu
        rw [Function.update_self, hd]
        split
        · simp [ExiThread.wake, hnd.1]
        · next hc =>
          have : u ∉ s.sleepers c := by
            intro hm
            obtain ⟨d', hd'⟩ := (h.mem c u).1 hm
            rw [hd] at hd'
            cases hd'
            exact hc rfl
          simp [ExiThread.wake, this]
      · rw [Function.update_of_ne hu]
        split
        · next hc =>
          subst hc
          rw [← h.mem, hs, List.mem_cons]
          exact ⟨Or.inr, fun hm => hm.resolve_left hu⟩
        · exact h.mem c u

theorem exiSignal_rest (s : ExiSys T) (ch : ExiChan) : (exiSignal s ch).links = s.links ∧ (exiSignal s ch).lckdevs = s.lckdevs ∧
    (exiSignal s ch).posts = s.posts ∧ (exiSignal s ch).ran = s.ran := by
  unfold exiSignal
  split <;> exact ⟨rfl, rfl, rfl, rfl⟩

theorem ExiNodes.signal (h : ExiNodes s free q) (ch : ExiChan) : ExiNodes (exiSignal s ch) free q := by
  obtain ⟨h1, h2, h3, h4⟩ := exiSignal_rest s ch
  exact ⟨h1 ▸ h.rep, h.all, h.count, h2 ▸ h3 ▸ h4 ▸ h.fifo, h2 ▸ h.cb⟩

variable {n : Nat} {rest : List Nat}

/-- The state in which an unlock runs the callback of the waiter it took off its list. -/
def exiPopped (s : ExiSys T) (ch : ExiChan) (n : Nat) : ExiSys T :=
  { s with locked := Function.update s.locked ch false
           links := lwpQueueAppendI (lwpQueueFirstnodeI s.links (.chan ch)).1 .free n
           ran := Function.update s.ran ch (s.ran ch ++ [s.lckdevs n]) }

theorem exiUnlock_eq (h : ExiNodes s free q) (hl : s.locked ch = true) (hq : q ch = n :: rest) :
    exiUnlock s ch = (if (s.lckdevs n).isHandler then exiSignal (exiPopped s ch n) ch else exiPopped s ch n, 1) := by
  have hne : lwpQueueIsempty s.links (.chan ch) = false := by
    rw [← Bool.not_eq_true, lwpQueueIsempty_iff h.rep (q := .chan ch) rfl, hq]
    exact fun e => by cases e
  have hlist : exiLists free q (.chan ch) = some (n :: rest) := congrArg some hq
  obtain ⟨-, hgot⟩ := lwpQueueFirstnodeI_rep h.rep hlist
  have hcb := h.cb ch n (hq ▸ List.mem_cons_self)
  unfold exiUnlock
  rw [if_pos hl]
  dsimp only
  rw [if_neg (by rw [hne]; simp), hgot]
  dsimp only
  unfold exiDequeue exiRun ExiLckDev.isHandler
  dsimp only
  cases hu : (s.lckdevs n).unlockcb with
  | none => exact absurd hu hcb
  | some cb => cases cb <;> rfl

theorem exiUnlock_empty (h : ExiNodes s free q) (hl : s.locked ch = true) (hq : q ch = []) :
    exiUnlock s ch = ({ s with locked := Function.update s.locked ch false }, 1) := by
  have he := (lwpQueueIsempty_iff h.rep (q := .chan ch) rfl).2 hq
  unfold exiUnlock
  rw [if_pos hl]
  dsimp only
  rw [if_pos he]

omit [DecidableEq T] in
/-- **The node of a waiter that is called back goes to the end of the free list.** -/
theorem ExiNodes.pop (h : ExiNodes s free q) (hq : q ch = n :: rest) :
    ExiNodes (exiPopped s ch n) (free ++ [n]) (Function.update q ch rest) := by
  have hnd := h.rep.nodup (q := .chan ch) rfl
  rw [hq, List.nodup_cons] at hnd
  have hlist : exiLists free q (.chan ch) = some (n :: rest) := congrArg some hq
  have hrep := (lwpQueueFirstnodeI_rep h.rep hlist).1
  have hout : Free (Function.update (exiLists free q) (.chan ch) (some rest)) n :=
    h.rep.free_of_removed (q := .chan ch) rfl hnd.1 (hq ▸ List.mem_cons_self)
  rw [exiLists_chan] at hrep hout
  have happ := lwpQueueAppendI_rep hrep (q := .free) rfl hout
  rw [exiLists_free] at happ
  refine ⟨happ, fun m => ?_, ?_, fun c => ?_, fun c m hm => ?_⟩
  · rw [h.all m]
    constructor
    · rintro ⟨x, hx⟩
      cases x with
      | free => exact ⟨.free, List.mem_append_left _ hx⟩
      | chan c =>
        by_cases hc : c = ch
        · subst hc
          have hx' : m ∈ q c := hx
          rw [hq, List.mem_cons] at hx'
          rcases hx' with rfl | hx'
          · exact ⟨.free, by simp [held, exiLists]⟩
          · exact ⟨.chan c, by simpa [held, exiLists] using hx'⟩
        · exact ⟨.chan c, by simpa [held, exiLists, hc] using hx⟩
    · rintro ⟨x, hx⟩
      cases x with
      | free =>
        rcases List.mem_append.1 hx with hx | hx
        · exact ⟨.free, hx⟩
        · refine ⟨.chan ch, ?_⟩
          show m ∈ q ch
          rw [List.mem_singleton.1 hx, hq]
          exact List.mem_cons_self
      | chan c =>
        refine ⟨.chan c, ?_⟩
        by_cases hc : c = ch
        · subst hc
          have hx' : m ∈ rest := by simpa [held, exiLists] using hx
          show m ∈ q c
          rw [hq]
          exact List.mem_cons_of_mem _ hx'
        · simpa [held, exiLists, hc] using hx
  · have hsum := sum_length_update q ch rest
    have := h.count
    rw [hq] at hsum
    simp only [List.length_append, List.length_cons, List.length_nil] at hsum ⊢
    omega
  · have hfifo := h.fifo c
    by_cases hc : c = ch
    · subst hc
      rw [hq, List.map_cons] at hfifo
      simpa [exiPopped] using hfifo
    · simpa [exiPopped, hc] using hfifo
  · by_cases hc : c = ch
    · subst hc
      rw [Function.update_self] at hm
      exact h.cb c m (hq ▸ List.mem_cons_of_mem _ hm)
    · rw [Function.update_of_ne hc] at hm
      exact h.cb c m hm

/-- **An unlock** calls the first waiter back and wakes a thread for each handler it takes off. -/
theorem ExiInv.unlock (h : ExiInv s free q) (ch : ExiChan) : ∃ free' q', ExiInv (exiUnlock s ch).1 free' q' := by
  by_cases hl : s.locked ch = true
  · cases hq : q ch with
    | nil =>
      rw [exiUnlock_empty h.toExiNodes hl hq]
      exact ⟨free, q, h.flags _ s.lockeddev⟩
    | cons n rest =>
      rw [exiUnlock_eq h.toExiNodes hl hq]
      refine ⟨free ++ [n], Function.update q ch rest, ?_⟩
      have hnodes := h.toExiNodes.pop hq
      have hsleep : ExiSleep (exiPopped s ch n) := ⟨h.nodup, h.mem⟩
      have hch := h.enough ch
      rw [hq, ExiSys.handlers, List.countP_cons] at hch
      by_cases hd : (s.lckdevs n).isHandler = true
      · rw [if_pos hd]
        refine ⟨hnodes.signal ch, hsleep.signal ch, fun c => ?_⟩
        rw [exiSignal_sleepers, ExiSys.handlers, (exiSignal_rest _ ch).2.1]
        by_cases hc : c = ch
        · subst hc
          rw [if_pos rfl, Function.update_self, List.length_tail]
          rw [if_pos hd] at hch
          exact Nat.sub_le_of_le_add hch
        · rw [if_neg hc, Function.update_of_ne hc]
          exact h.enough c
      · rw [if_neg hd]
        refine ⟨hnodes, hsleep, fun c => ?_⟩
        by_cases hc : c = ch
        · subst hc
          rw [Function.update_self]
          rw [if_neg hd] at hch
          exact hch
        · rw [Function.update_of_ne hc]
          exact h.enough c
  · have : exiUnlock s ch = (s, 0) := if_neg hl
    rw [this]
    exact ⟨free, q, h⟩

/-! ## Steps and runs -/

omit [DecidableEq T] in
theorem exiInitQueue_inv (h : ExiInv s free q) {room : Bool} {s' : ExiSys T} (he : exiInitQueue s ch room = some s') :
    ExiInv s' free q ∧ s'.locked = s.locked ∧ s'.thread = s.thread ∧ exiOutstanding s' = exiOutstanding s ∧
      (room || (s.unlockqueue ch).isSome) = true := by
  unfold exiInitQueue at he
  split at he
  · next hn =>
    split at he
    · next hroom =>
      cases he
      have hs : ExiSys.sleepers { s with unlockqueue := Function.update s.unlockqueue ch (some []) } = s.sleepers := by
        funext c
        by_cases hc : c = ch
        · subst hc
          simp [ExiSys.sleepers, hn]
        · simp [ExiSys.sleepers, hc]
      refine ⟨⟨⟨h.rep, h.all, h.count, h.fifo, h.cb⟩, ⟨?_, ?_⟩, ?_⟩, rfl, rfl, rfl, by simp [hroom]⟩
      · rw [hs]
        exact h.nodup
      · rw [hs]
        exact h.mem
      · rw [hs]
        exact h.enough
    · cases he
  · next hn =>
    cases he
    exact ⟨h, rfl, rfl, rfl, by simp [Option.isSome_iff_ne_none.2 hn]⟩

/-- **Each event** finds the nodes and the sleepers in order and leaves them so. -/
theorem ExiInv.step (h : ExiInv s free q) {e : ExiEvent T} (he : (exiSystem.restrict exiRoom).enabled s e) :
    ∃ free' q', ExiInv (exiNext s e) free' q' := by
  obtain ⟨hg, hroom⟩ := he
  cases e with
  | lock ch dev unlockCB =>
    apply h.lock
    intro hl hcb
    apply hroom
    cases unlockCB with
    | none => exact absurd rfl hcb
    | some cb => exact hl
  | unlock ch => exact h.unlock ch
  | lockEx t ch dev =>
    have hrun : s.thread t = .running := of_decide_eq_true hg
    show ∃ free' q', ExiInv (exiLockExTry s t ch dev) free' q'
    unfold exiLockExTry exiLock
    by_cases hl : s.locked ch = true
    · rw [if_pos hl]
      exact ⟨free, q, h.setThread (by simp [hrun]) (by simp)⟩
    · rw [if_neg hl]
      exact ⟨free, q, h.flags ..⟩
  | block t room =>
    cases ht : s.thread t with
    | trying ch dev =>
      have hold : ∀ c d, s.thread t ≠ .asleep c d := by simp [ht]
      have hnext : exiNext s (.block t room) = exiLockExBlock s t ch dev room := by simp only [exiNext, ht]
      have hleaves : exiLeaves s (.block t room) = (s.locked ch && (room || (s.unlockqueue ch).isSome)) := by
        simp only [exiLeaves, ht]
      rw [hnext]
      unfold exiLockExBlock
      cases hq : exiInitQueue s ch room with
      | none => exact ⟨free, q, h.setThread hold (by simp)⟩
      | some s' =>
        obtain ⟨h', hlocked, hthread, hout, hsome⟩ := exiInitQueue_inv h hq
        apply h'.lockLoop (by rw [hthread]; exact hold)
        intro hl
        rw [hout]
        apply hroom
        rw [hleaves, hsome, ← hlocked, hl]
        rfl
    | _ => simp [exiSystem, exiGuard, ht, ExiThread.isTrying] at hg
  | retry t =>
    cases ht : s.thread t with
    | woken ch dev =>
      have hnext : exiNext s (.retry t) = exiLockLoop s t ch dev := by simp only [exiNext, ht]
      have hleaves : exiLeaves s (.retry t) = s.locked ch := by simp only [exiLeaves, ht]
      rw [hnext]
      exact h.lockLoop (by simp [ht]) fun hl => hroom (hleaves.trans hl)
    | _ => simp [exiSystem, exiGuard, ht, ExiThread.isWoken] at hg
  | lockExIsr ch dev room =>
    show ∃ free' q', ExiInv (exiLockExIsr s ch dev room) free' q'
    unfold exiLockExIsr
    by_cases hl : s.locked ch = true
    · have hfirst : exiLock s ch dev none = (s, 0) := if_pos hl
      rw [hfirst]
      dsimp only
      rw [if_pos rfl]
      cases hq : exiInitQueue s ch room with
      | none => exact ⟨free, q, h⟩
      | some s' =>
        obtain ⟨h', hlocked, -, hout, hsome⟩ := exiInitQueue_inv h hq
        apply h'.lock
        intro _ _
        rw [hout]
        apply hroom
        show (s.locked ch && _) = true
        rw [hsome, hl]
        rfl
    · have hfirst : exiLock s ch dev none =
          ({ s with lockeddev := Function.update s.lockeddev ch dev, locked := Function.update s.locked ch true }, 1) := if_neg hl
      rw [hfirst]
      exact ⟨free, q, h.flags ..⟩

end Threads

end Inv

section Runs
variable {T : Type}

theorem exiStart_inv (links : Mem ExiQ Nat) (lckdevs : Nat → ExiLckDev) :
    ExiInv (exiStart (T := T) links lckdevs) (List.range exiLockDevs) fun _ => [] := by
  have h1 := lwpQueueInitialize_rep (Rep.nothing links) .free Function.injective_id (fun _ _ _ h => by cases h) exiLockDevs
  have h2 := lwpQueueInitEmpty_rep (lwpQueueInitEmpty_rep (lwpQueueInitEmpty_rep h1 (.chan 0)) (.chan 1)) (.chan 2)
  have hlists : Function.update (Function.update (Function.update (Function.update (fun _ => none) ExiQ.free
      (some ((List.range exiLockDevs).map id))) (.chan 0) (some [])) (.chan 1) (some [])) (.chan 2) (some []) =
      exiLists (List.range exiLockDevs) fun _ => [] := by
    funext x
    match x with
    | .free => simp [exiLists]
    | .chan 0 | .chan 1 | .chan 2 => simp [exiLists, Function.update]
  rw [hlists] at h2
  refine ⟨⟨h2, fun n => ?_, rfl, fun ch => rfl, fun ch n hn => by cases hn⟩, ⟨fun ch => List.nodup_nil, fun ch t => ?_⟩, ?_⟩
  · constructor
    · intro hn
      exact ⟨.free, List.mem_range.2 hn⟩
    · rintro ⟨x, hx⟩
      cases x with
      | free => exact List.mem_range.1 hx
      | chan c => cases hx
  · simp [ExiSys.sleepers, exiStart]
  · exact fun ch => Nat.le_refl _

variable [DecidableEq T]

theorem exi_run_inv {links : Mem ExiQ Nat} {lckdevs : Nat → ExiLckDev} {es : List (ExiEvent T)}
    (hl : (exiSystem.restrict exiRoom).Legal (exiStart links lckdevs) es) :
    ∃ free q, ExiInv (exiSystem.run (exiStart links lckdevs) es) free q := by
  obtain ⟨free, q, h⟩ := hl.invariant (I := fun s : ExiSys T => ∃ free q, ExiInv s free q)
    (fun _ _ ⟨_, _, hs⟩ he => hs.step he) ⟨_, _, exiStart_inv links lckdevs⟩
  exact ⟨free, q, h⟩

/-! ## The lock's law -/

/-- In `LWP_ThreadSleep` for a channel. -/
def ExiThread.sleepsOn (ch : ExiChan) : ExiThread → Bool
  | .asleep c _ => c = ch
  | .woken c _ => c = ch
  | _ => false

/-- There, with a wake-up that was issued. -/
def ExiThread.wokenOn (ch : ExiChan) : ExiThread → Bool
  | .woken c _ => c = ch
  | _ => false

omit [DecidableEq T] in
theorem exiLock_ran (s : ExiSys T) (ch : ExiChan) (dev : Nat) (unlockCB : Option ExiCallback) :
    (exiLock s ch dev unlockCB).1.ran = s.ran := by
  unfold exiLock exiWait
  split
  · cases unlockCB with
    | none => rfl
    | some cb =>
      dsimp only
      split <;> rfl
  · rfl

theorem exiLockLoop_ran (s : ExiSys T) (t : T) (ch : ExiChan) (dev : Nat) : (exiLockLoop s t ch dev).ran = s.ran := by
  unfold exiLockLoop
  dsimp only
  split
  · exact exiLock_ran ..
  · exact exiLock_ran ..

omit [DecidableEq T] in
theorem exiInitQueue_ran {s s' : ExiSys T} {ch : ExiChan} {room : Bool} (he : exiInitQueue s ch room = some s') : s'.ran = s.ran := by
  unfold exiInitQueue at he
  split at he
  · split at he
    · cases he
      rfl
    · cases he
  · cases he
    rfl

theorem exiNext_ran (s : ExiSys T) {e : ExiEvent T} (he : ∀ ch, e ≠ .unlock ch) : (exiNext s e).ran = s.ran := by
  cases e with
  | lock ch dev unlockCB => exact exiLock_ran ..
  | unlock ch => exact absurd rfl (he ch)
  | lockEx t ch dev =>
    show (exiLockExTry s t ch dev).ran = s.ran
    unfold exiLockExTry
    dsimp only
    split <;> exact exiLock_ran ..
  | block t room =>
    cases ht : s.thread t with
    | trying ch dev =>
      have hnext : exiNext s (.block t room) = exiLockExBlock s t ch dev room := by simp only [exiNext, ht]
      rw [hnext]
      unfold exiLockExBlock
      cases hq : exiInitQueue s ch room with
      | none => rfl
      | some s' => exact (exiLockLoop_ran ..).trans (exiInitQueue_ran hq)
    | _ => simp only [exiNext, ht]
  | retry t =>
    cases ht : s.thread t with
    | woken ch dev =>
      have hnext : exiNext s (.retry t) = exiLockLoop s t ch dev := by simp only [exiNext, ht]
      rw [hnext]
      apply exiLockLoop_ran
    | _ => simp only [exiNext, ht]
  | lockExIsr ch dev room =>
    show (exiLockExIsr s ch dev room).ran = s.ran
    unfold exiLockExIsr
    dsimp only
    split
    · cases hq : exiInitQueue (exiLock s ch dev none).1 ch room with
      | none => exact exiLock_ran ..
      | some s' => exact (exiLock_ran ..).trans ((exiInitQueue_ran hq).trans (exiLock_ran ..))
    · exact exiLock_ran ..

/-- **What the channel lock owes its users**: the nodes are on the four lists, each on one; a successful unlock runs the callback of the
oldest waiter its channel was left and has not called back, nothing else runs one; and of the threads in `LWP_ThreadSleep` for a channel
there are no more than handlers queued there and wake-ups issued. -/
structure ExiSound [Fintype T] (s : ExiSys T) (free : List Nat) (q : ExiChan → List Nat) : Prop where
  linked : IsQueue s.links .free free ∧ ∀ ch, IsQueue s.links (.chan ch) (q ch)
  node : ∀ n, n < exiLockDevs → ∃! x, n ∈ held (exiLists free q) x
  once : free.Nodup ∧ ∀ ch, (q ch).Nodup
  waiting : ∀ ch, s.posts ch = s.ran ch ++ (q ch).map s.lckdevs
  unlock : ∀ ch, s.locked ch = true → (exiUnlock s ch).2 = 1 ∧
    (exiUnlock s ch).1.ran = Function.update s.ran ch (s.ran ch ++ ((q ch).map s.lckdevs).head?.toList)
  unlocked : ∀ ch, s.locked ch = false → exiUnlock s ch = (s, 0)
  other : ∀ e : ExiEvent T, (∀ ch, e ≠ .unlock ch) → (exiNext s e).ran = s.ran
  asleep : ∀ ch t, t ∈ s.sleepers ch ↔ ∃ dev, s.thread t = .asleep ch dev
  enough : ∀ ch, tally (fun t => (s.thread t).sleepsOn ch = true) ≤
    s.handlers (q ch) + tally fun t => (s.thread t).wokenOn ch = true

theorem ExiInv.unlock_ran {s : ExiSys T} {free : List Nat} {q : ExiChan → List Nat} (h : ExiInv s free q) {ch : ExiChan}
    (hl : s.locked ch = true) : (exiUnlock s ch).2 = 1 ∧
      (exiUnlock s ch).1.ran = Function.update s.ran ch (s.ran ch ++ ((q ch).map s.lckdevs).head?.toList) := by
  cases hq : q ch with
  | nil =>
    rw [exiUnlock_empty h.toExiNodes hl hq]
    simp
  | cons n rest =>
    rw [exiUnlock_eq h.toExiNodes hl hq]
    refine ⟨rfl, ?_⟩
    dsimp only [List.map_cons, List.head?_cons, Option.toList_some]
    split
    · rw [(exiSignal_rest _ ch).2.2.2]
      rfl
    · rfl

theorem ExiSleep.tally_le [Fintype T] {s : ExiSys T} (h : ExiSleep s) (ch : ExiChan) :
    tally (fun t => (s.thread t).sleepsOn ch = true) ≤ (s.sleepers ch).length + tally fun t => (s.thread t).wokenOn ch = true := by
  unfold tally
  rw [← List.toFinset_card_of_nodup (h.nodup ch)]
  refine le_trans (Finset.card_le_card fun t ht => ?_) (Finset.card_union_le _ _)
  have hs : (s.thread t).sleepsOn ch = true := (Finset.mem_filter.1 ht).2
  rw [Finset.mem_union, List.mem_toFinset, h.mem, Finset.mem_filter]
  cases hth : s.thread t with
  | asleep c d =>
    rw [hth] at hs
    have hc : c = ch := of_decide_eq_true hs
    exact Or.inl ⟨d, by rw [hc]⟩
  | woken c d =>
    rw [hth] at hs
    exact Or.inr ⟨Finset.mem_univ _, hs⟩
  | running => rw [hth] at hs; cases hs
  | trying c d => rw [hth] at hs; cases hs

/-- **The channel lock**, on every run in which at most 32 waiters are outstanding. -/
theorem exi_channel_lock [Fintype T] {links : Mem ExiQ Nat} {lckdevs : Nat → ExiLckDev} {es : List (ExiEvent T)}
    (hl : (exiSystem.restrict exiRoom).Legal (exiStart links lckdevs) es) :
    ∃ free q, ExiSound (exiSystem.run (exiStart links lckdevs) es) free q := by
  obtain ⟨free, q, h⟩ := exi_run_inv hl
  refine ⟨free, q, ⟨h.rep.linked rfl, fun ch => h.rep.linked rfl⟩, fun n hn => ?_, ⟨?_, fun ch => ?_⟩, h.fifo,
    fun ch => h.unlock_ran, fun ch hc => if_neg (by rw [hc]; simp), fun e => exiNext_ran _, h.mem, fun ch => ?_⟩
  · obtain ⟨x, hx⟩ := (h.all n).1 hn
    exact ⟨x, hx, fun y hy => h.rep.held_inj hy hx⟩
  · exact h.rep.nodup (q := .free) rfl
  · exact h.rep.nodup (q := .chan ch) rfl
  · exact (h.tally_le ch).trans (Nat.add_le_add_right (h.enough ch) _)

/-- Two threads and an interrupt handler wait for a channel, with a user's callback between; the one woken finds it locked again. -/
theorem exi_channel_lock_sample : ∃ free q, ExiSound (exiSystem.run (exiStart (T := Fin 3) (fun _ => .null) fun _ => ⟨0, none⟩)
    [.lock 0 2 none, .lockEx 0 0 1, .block 0 true, .lock 0 5 (some (.user 7)), .lockEx 1 0 2, .block 1 true, .lockExIsr 0 3 true,
      .unlock 0, .lock 0 9 none, .retry 0, .unlock 0, .lock 0 5 none, .unlock 0]) free q := by
  apply exi_channel_lock
  decide +kernel

end Runs

end Libogc
