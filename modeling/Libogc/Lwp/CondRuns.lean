import Libogc.Lwp.Cond
import Libogc.Lwp.MutexOrder
/-!
# CondRuns — what binds a condition variable to its mutex

`lock` is set by every wait that blocks, and cleared only by a signal that finds nobody.  The invariant is that a bound mutex is the mutex
of a thread that still waits: it needs every kernel step to leave the threads on the queue of the condition variable, but the one it takes.
-/
namespace Libogc

open Links Runs

set_option linter.unusedSectionVars false

/-! ## Kernel steps -/

section Leaves
variable {T W : Type} [DecidableEq T] [DecidableEq W] {k k' k'' : Kernel T W} {Qs : QId T W → Option (List T)} {ph : Option (Enq T W)}
  {c w : W} {gone : Option T} {t : T}

/-- Blocked on the queue `c`. -/
def Kernel.BlockedOn (k : Kernel T W) (c : W) (u : T) : Prop := ¬ k.Ready u ∧ (k.thr u).wait.queue = some c

/-- **What a step leaves**: the threads blocked on `c` but one, and the ready ones. -/
structure Kernel.Leaves (k k' : Kernel T W) (c : W) (gone : Option T) : Prop where
  blocked : ∀ u, gone ≠ some u → k.BlockedOn c u → k'.BlockedOn c u
  ready : ∀ u, k.Ready u → k'.Ready u
  exec : k'.executing = k.executing
  settled : SettledThreads k → SettledThreads k'

theorem Kernel.Leaves.trans (h : k.Leaves k' c none) (h' : k'.Leaves k'' c gone) : k.Leaves k'' c gone :=
  ⟨fun u hg hb => h'.blocked u hg (h.blocked u nofun hb), fun u hr => h'.ready u (h.ready u hr), h'.exec.trans h.exec,
    fun hs => h'.settled (h.settled hs)⟩

theorem Kernel.Leaves.of_same (hst : ∀ u, (k'.thr u).curState = (k.thr u).curState)
    (hq : ∀ u, (k'.thr u).wait.queue = (k.thr u).wait.queue) (hx : k'.executing = k.executing) : k.Leaves k' c none := by
  refine ⟨fun u _ hb => ⟨?_, (hq u).trans hb.2⟩, fun u hr => ?_, hx, fun hs u => ?_⟩
  · rw [Kernel.Ready, hst]
    exact hb.1
  · rw [Kernel.Ready, hst]
    exact hr
  · rw [hst]
    exact hs u

theorem Kernel.Leaves.refl (k : Kernel T W) : k.Leaves k c none := .of_same (fun _ => rfl) (fun _ => rfl) rfl

theorem Kernel.Leaves.of_woken (hr : k'.Ready t) (hthr : ∀ u, u ≠ t → k'.thr u = k.thr u) (hx : k'.executing = k.executing) :
    k.Leaves k' c (some t) := by
  refine ⟨fun u hg hb => ?_, fun u hu => ?_, hx, fun hs u => ?_⟩
  · have hne : u ≠ t := fun he => hg (congrArg some he.symm)
    rw [Kernel.BlockedOn, Kernel.Ready, hthr u hne]
    exact hb
  · by_cases he : u = t
    · rw [he]
      exact hr
    · rw [Kernel.Ready, hthr u he]
      exact hu
  · by_cases he : u = t
    · rw [he, hr]
      rfl
    · rw [hthr u he]
      exact hs u

theorem Kernel.Leaves.of_elsewhere (h : k.Leaves k' c (some t)) (ht : ¬ k.BlockedOn c t) : k.Leaves k' c none :=
  ⟨fun u _ hb => h.blocked u (fun he => ht (Option.some.inj he ▸ hb)) hb, h.ready, h.exec, h.settled⟩

theorem lwpThreadqueueDequeue_executing (h : TqInv k Qs ph) (w : W) : (lwpThreadqueueDequeue k w).1.executing = k.executing := by
  by_cases hu : ∃ u, Waits Qs w u
  · obtain ⟨u, hu⟩ := hu
    obtain ⟨t, m, Qs₁, -, -, -, he⟩ := h.dequeue_some hu
    rw [he]
    exact lwpThreadUnblock_stopTimer_executing _ _
  · rw [h.dequeue_none fun u hw => hu ⟨u, hw⟩]
    unfold lwpThreadqueueNobody
    split <;> rfl

theorem TqInv.dequeue_leaves (h : TqInv k Qs ph) (w c : W) : k.Leaves (lwpThreadqueueDequeue k w).1 c (lwpThreadqueueDequeue k w).2 := by
  have hx := lwpThreadqueueDequeue_executing h w
  obtain ⟨Qs', -, hd⟩ := h.dequeue w
  revert hx hd
  rcases lwpThreadqueueDequeue k w with ⟨k', o⟩
  intro hx hd
  cases hd with
  | took t _ _ hr hthr _ =>
    refine .of_woken hr (fun u hu => ?_) hx
    show k'.thr u = _
    rw [show k'.thr = _ from hthr, setThr_thr_ne _ _ _ hu]
  | early e _ _ _ _ _ he =>
    have hl : k.Leaves k' c none := by
      rw [show k' = _ from he]
      exact .of_same (fun _ => rfl) (fun _ => rfl) rfl
    exact ⟨fun u _ => hl.blocked u nofun, hl.ready, hl.exec, hl.settled⟩
  | nobody _ _ _ he =>
    rw [show k' = k from he]
    exact .refl k

theorem TqInv.tickle_leaves (h : TqInv k Qs ph) (ha : (k.thr t).timer = .active) (c : W) : k.Leaves (lwpWdTickle k t) c (some t) := by
  have hx := h.tickle_executing ha
  obtain ⟨Qs', -, he⟩ := h.tickle ha
  cases he with
  | took w _ _ hr hthr _ => exact .of_woken hr (fun u hu => by rw [hthr, setThr_thr_ne _ _ _ hu]) hx
  | noted e _ _ _ hthr _ =>
    have hsame : ∀ u, ((lwpWdTickle k t).thr u).curState = (k.thr u).curState ∧
        ((lwpWdTickle k t).thr u).wait.queue = (k.thr u).wait.queue := by
      intro u
      rw [hthr]
      by_cases hu : u = t
      · rw [hu, setThr_thr_self]
        exact ⟨rfl, rfl⟩
      · rw [setThr_thr_ne _ _ _ hu]
        exact ⟨rfl, rfl⟩
    have hl : k.Leaves (lwpWdTickle k t) c none := .of_same (fun u => (hsame u).1) (fun u => (hsame u).2) hx
    exact ⟨fun u _ => hl.blocked u nofun, hl.ready, hl.exec, hl.settled⟩

/-! ## The calls of a mutex -/

/-- **A step on another queue**: it keeps the kernel in order, and leaves the queue `c` as it is. -/
structure Kernel.Apart (k k' : Kernel T W) (c : W) (ph : Option (Enq T W)) : Prop where
  inv : ∃ Qs, TqInv k' Qs ph
  leaves : k.Leaves k' c none
  sync : (k'.tq c).syncState = (k.tq c).syncState

theorem Kernel.Apart.refl (h : TqInv k Qs ph) : k.Apart k c ph := ⟨⟨Qs, h⟩, .refl k, rfl⟩

theorem Kernel.Apart.trans {ph' : Option (Enq T W)} (h : k.Apart k' c ph) (h' : k'.Apart k'' c ph') : k.Apart k'' c ph' :=
  ⟨h'.inv, h.leaves.trans h'.leaves, h'.sync.trans h.sync⟩

theorem TqInv.apart_setThr (h : TqInv k Qs ph) (t : T) {f : Lwp W → Lwp W} (hf : (k.thr t).SameBlock (f (k.thr t))) :
    k.Apart (k.setThr t f) c ph := by
  have hthr : ∀ u, (k.thr u).SameBlock ((k.setThr t f).thr u) := by
    intro u
    by_cases hu : u = t
    · rw [hu, setThr_thr_self]
      exact hf
    · rw [setThr_thr_ne _ _ _ hu]
      exact ⟨⟨rfl, rfl, rfl⟩, rfl, rfl, id⟩
  exact ⟨⟨Qs, h.setThr hf⟩, .of_same (fun u => (hthr u).state) (fun u => (hthr u).queue) rfl, rfl⟩

theorem TqInv.apart_setRetCode (h : TqInv k Qs ph) (t : T) (status : BitVec 32) : k.Apart (k.setRetCode t status) c ph :=
  h.apart_setThr t (setRetCode_sameBlock _ _)

theorem TqInv.apart_addRes (h : TqInv k Qs ph) (t : T) (d : BitVec 32) : k.Apart (k.addRes t d) c ph :=
  h.apart_setThr t ⟨⟨rfl, rfl, rfl⟩, rfl, rfl, id⟩

theorem TqInv.apart_changepriority (h : TqInv k Qs ph) (hset : SettledThreads k)
    (hns : ∀ e, ph = some e → e.thread = t → ∀ c p, e.pc ≠ .search c p) (prio : Fin 256) (b : Bool) :
    k.Apart (lwpThreadChangepriority k t prio b) c ph := by
  obtain ⟨Qs', h', -⟩ := h.changepriority hns (fun _ => hset t) prio b
  have hkeep := lwpThreadChangepriority_keeps (fun _ => hset t) prio b
  refine ⟨⟨Qs', h'⟩, .of_same (fun u => (hkeep u).1) (fun u => by rw [(hkeep u).2.1]) (lwpThreadChangepriority_executing ..), ?_⟩
  rw [lwpThreadChangepriority_tq]

theorem TqInv.apart_trylock (h : TqInv k Qs none) (hset : SettledThreads k) (p : LwpMutex T) :
    k.Apart (lwpMutexSeizeIrqTrylock k p).1 c none := by
  have h₁ : k.Apart (k.setRetCode k.executing mutexSuccessful) c none := h.apart_setRetCode _ _
  unfold lwpMutexSeizeIrqTrylock
  dsimp only
  generalize k.setRetCode k.executing mutexSuccessful = k₁ at h₁ ⊢
  obtain ⟨Qs₁, hq₁⟩ := h₁.inv
  have hset₁ := h₁.leaves.settled hset
  by_cases hl : p.lock ≠ .locked
  · rw [if_pos hl]
    have h₂ : k₁.Apart (if p.attrs.counts then k₁.addRes k.executing 1 else k₁) c none := by
      split
      · exact hq₁.apart_addRes _ _
      · exact .refl hq₁
    generalize (if p.attrs.counts then k₁.addRes k.executing 1 else k₁) = k₂ at h₂ ⊢
    obtain ⟨Qs₂, hq₂⟩ := h₂.inv
    have hset₂ := h₂.leaves.settled hset₁
    refine h₁.trans (h₂.trans ?_)
    split_ifs
    · exact .refl hq₂
    · exact .refl hq₂
    · exact hq₂.apart_changepriority hset₂ (fun _ he => nomatch he) _ _
    · have h₃ : k₂.Apart (k₂.setRetCode k.executing mutexCeilingviol) c none := hq₂.apart_setRetCode _ _
      obtain ⟨Qs₃, hq₃⟩ := h₃.inv
      exact h₃.trans (hq₃.apart_addRes _ _)
  · rw [if_neg hl]
    split
    · split
      · exact h₁
      · exact h₁.trans (hq₁.apart_setRetCode _ _)
      · exact h₁
    · exact h₁

theorem TqInv.apart_enter (h : TqInv k Qs none) (hc : c ≠ w) {f : Lwp W → Lwp W} (hr : k.Ready t) (hx : k.executing = t)
    (hp : (k.thr t).SamePrio (f (k.thr t))) (hs : (f (k.thr t)).curState = (k.thr t).curState)
    (htm : (f (k.thr t)).timer = (k.thr t).timer) (hq : (f (k.thr t)).wait.queue = some w) (timeout : Bool) :
    k.Apart ((lwpThreadqueueCsenter k w).setThr t f) c (some ⟨t, w, timeout, .setstate⟩) := by
  have hne : ∀ u, u ≠ t → ((lwpThreadqueueCsenter k w).setThr t f).thr u = k.thr u := fun u hu => setThr_thr_ne _ _ _ hu
  have hself : ((lwpThreadqueueCsenter k w).setThr t f).thr t = f (k.thr t) := setThr_thr_self ..
  have hst : ∀ u, (((lwpThreadqueueCsenter k w).setThr t f).thr u).curState = (k.thr u).curState := by
    intro u
    by_cases hu : u = t
    · rw [hu, hself, hs]
    · rw [hne u hu]
  refine ⟨⟨Qs, h.enter w timeout hx hr hp hs htm hq⟩, ⟨fun u _ hb => ?_, fun u hu => ?_, rfl, fun hset u => ?_⟩, ?_⟩
  · have hut : u ≠ t := fun he => hb.1 (he ▸ hr)
    rw [Kernel.BlockedOn, Kernel.Ready, hne u hut]
    exact hb
  · rw [Kernel.Ready, hst]
    exact hu
  · rw [hst]
    exact hset u
  · exact congrArg ThrQueue.syncState (Function.update_of_ne hc ..)

theorem TqInv.apart_seize (h : TqInv k Qs none) (hset : SettledThreads k) (hc : c ≠ w) (hr : k.Ready k.executing) (p : LwpMutex T)
    (waitStatus : BitVec 32) (timeout : Bool) :
    k.Apart (lwpMutexSeize k p w waitStatus timeout).1 c (lwpMutexSeize k p w waitStatus timeout).2.2 ∧
      ∀ e, (lwpMutexSeize k p w waitStatus timeout).2.2 = some e → e = ⟨k.executing, w, timeout, .setstate⟩ := by
  have h₁ := h.apart_trylock hset (c := c) p
  unfold lwpMutexSeize
  revert h₁
  rcases lwpMutexSeizeIrqTrylock k p with ⟨k₁, p₁, wait⟩
  intro h₁
  dsimp only at h₁ ⊢
  obtain ⟨Qs₁, hq₁⟩ := h₁.inv
  cases wait with
  | false => exact ⟨h₁, fun e he => nomatch he⟩
  | true =>
    rw [if_pos rfl]
    by_cases hw : waitStatus ≠ 0
    · rw [if_pos hw]
      exact ⟨h₁.trans (hq₁.apart_setRetCode _ _), fun e he => nomatch he⟩
    · rw [if_neg hw]
      have hr₁ : k₁.Ready k₁.executing := by
        rw [h₁.leaves.exec]
        exact h₁.leaves.ready _ hr
      dsimp only
      refine ⟨h₁.trans (hq₁.apart_enter hc hr₁ rfl ⟨rfl, rfl, rfl⟩ rfl rfl rfl timeout), fun e he => ?_⟩
      rw [← Option.some.inj he, h₁.leaves.exec]

theorem TqInv.apart_inherit {e : Enq T W} (h : TqInv k Qs (some e)) (hset : SettledThreads k) (hpc : e.pc = .setstate)
    (p : LwpMutex T) : k.Apart (lwpMutexInherit k p).1 c (some e) := by
  have hns : ∀ e', some e = some e' → ∀ c p, e'.pc ≠ .search c p := by
    intro e' he c p hp
    rw [← Option.some.inj he, hpc] at hp
    cases hp
  unfold lwpMutexInherit
  dsimp only
  split
  · split
    · exact h.apart_changepriority hset (fun e' he _ => hns e' he) _ _
    · exact .refl h
  · exact .refl h

theorem TqInv.apart_ceiling (h : TqInv k Qs none) (hset : SettledThreads k) (p : LwpMutex T) : k.Apart (lwpMutexCeiling k p) c none := by
  unfold lwpMutexCeiling
  dsimp only
  split
  · exact h.apart_changepriority hset (fun _ he => nomatch he) _ _
  · exact .refl h

/-- What the former holder loses: its count, and the priority it inherited. -/
theorem TqInv.apart_restore (h : TqInv k Qs none) (hset : SettledThreads k) (counts : Bool) (holder : T) :
    k.Apart (let k := if counts then k.addRes holder (-1) else k
      if counts ∧ (k.thr holder).resCnt = 0 ∧ (k.thr holder).realPrio ≠ (k.thr holder).curPrio then
        lwpThreadChangepriority k holder (k.thr holder).realPrio true
      else k) c none := by
  have h₁ : k.Apart (if counts then k.addRes holder (-1) else k) c none := by
    split
    · exact h.apart_addRes _ _
    · exact .refl h
  dsimp only
  generalize (if counts then k.addRes holder (-1) else k) = k₁ at h₁ ⊢
  obtain ⟨Qs₁, hq₁⟩ := h₁.inv
  refine h₁.trans ?_
  split
  · exact hq₁.apart_changepriority (h₁.leaves.settled hset) (fun _ he => nomatch he) _ _
  · exact .refl hq₁

theorem TqInv.apart_release (h : TqInv k Qs none) (hset : SettledThreads k) (p : LwpMutex T) : k.Apart (lwpMutexRelease k p).1 c none := by
  unfold lwpMutexRelease
  dsimp only
  by_cases h1 : p.attrs.onlyownerrelease ∧ p.holder ≠ some k.executing
  · rw [if_pos h1]
    exact .refl h
  rw [if_neg h1]
  by_cases h2 : p.nestCnt = 0
  · rw [if_pos h2]
    exact .refl h
  rw [if_neg h2]
  by_cases h3 : p.nestCnt - 1 ≠ 0 ∧ p.attrs.nestBehavior = .acquire
  · rw [if_pos h3]
    exact .refl h
  rw [if_neg h3]
  by_cases h4 : p.nestCnt - 1 ≠ 0 ∧ p.attrs.nestBehavior = .error
  · rw [if_pos h4]
    exact .refl h
  rw [if_neg h4]
  cases p.holder with
  | none => exact .refl h
  | some holder => exact h.apart_restore hset _ holder

theorem TqInv.apart_handover (h : TqInv k Qs none) (hc : c ≠ w) (p : LwpMutex T) : k.Apart (lwpMutexHandover k p w).1 c none := by
  have hl := h.dequeue_leaves w c
  obtain ⟨Qs', hq', hd⟩ := h.dequeue w
  unfold lwpMutexHandover
  revert hl hq' hd
  rcases lwpThreadqueueDequeue k w with ⟨k', o⟩
  intro hl hq' hd
  dsimp only at hl hq' hd ⊢
  cases hd with
  | took t hw _ _ _ htq =>
    have hb : ¬ k.BlockedOn c t := by
      rintro ⟨-, hq⟩
      rw [(h.waits w t hw).2] at hq
      exact hc (Option.some.inj hq).symm
    have h' : k.Apart k' c none := ⟨⟨Qs', hq'⟩, hl.of_elsewhere hb, by rw [htq]⟩
    dsimp only
    split
    · exact h'.trans (hq'.apart_addRes _ _)
    · exact h'
  | early e he => cases he
  | nobody _ _ _ he =>
    rw [he]
    exact .refl h

end Leaves

/-! ## The threads that wait -/

section Inv
variable {T M : Type} [DecidableEq T] [DecidableEq M] {s s' : CondState T M} {Qs : QId T (CondQueue M) → Option (List T)} {t u : T}

/-- **A thread that waits**: it is blocked on the condition variable, or on its way there and not overtaken. -/
def CondState.Live (s : CondState T M) (u : T) : Prop :=
  match s.phase.enq with
  | some e =>
    if e.thread = u then e.queue = .cond ∧ (s.kernel.tq .cond).syncState = .nothinghappend else s.kernel.BlockedOn .cond u
  | none => s.kernel.BlockedOn .cond u

theorem live_idle (h : s.phase.enq = none) : s.Live u ↔ s.kernel.BlockedOn .cond u := by
  unfold CondState.Live
  rw [h]

variable {e : Enq T (CondQueue M)} {m : M} {k : Kernel T (CondQueue M)}

theorem live_entering (h : s.phase.enq = some e) : s.Live e.thread ↔ e.queue = .cond ∧ (s.kernel.tq .cond).syncState = .nothinghappend := by
  unfold CondState.Live
  rw [h]
  exact iff_of_eq (if_pos rfl)

theorem CondState.Live.of_entering (h : s.phase.enq = some e) (hq : e.queue = .cond)
    (hs : (s.kernel.tq .cond).syncState = .nothinghappend) : s.Live e.thread := (live_entering h).2 ⟨hq, hs⟩

theorem live_other (h : s.phase.enq = some e) (hne : e.thread ≠ u) : s.Live u ↔ s.kernel.BlockedOn .cond u := by
  unfold CondState.Live
  rw [h]
  exact iff_of_eq (if_neg hne)

theorem CondState.Live.mono (h : s.Live u)
    (hph : s'.phase.enq.map (fun e => (e.thread, e.queue)) = s.phase.enq.map fun e => (e.thread, e.queue))
    (hb : (∀ e, s.phase.enq = some e → e.thread ≠ u) → s.kernel.BlockedOn .cond u → s'.kernel.BlockedOn .cond u)
    (hsync : (∃ e, s.phase.enq = some e ∧ e.thread = u) → (s'.kernel.tq .cond).syncState = (s.kernel.tq .cond).syncState) :
    s'.Live u := by
  cases he : s.phase.enq with
  | none =>
    rw [he, Option.map_none, Option.map_eq_none_iff] at hph
    exact (live_idle hph).2 (hb (fun e he' => by rw [he] at he'; cases he') ((live_idle he).1 h))
  | some e =>
    rw [he, Option.map_some, Option.map_eq_some_iff] at hph
    obtain ⟨e', he', heq⟩ := hph
    obtain ⟨ht, hq⟩ := Prod.mk.inj heq
    by_cases hu : e.thread = u
    · subst hu
      have hl := (live_entering he).1 h
      rw [← ht] at h ⊢
      refine (live_entering he').2 ⟨hq.trans hl.1, ?_⟩
      rw [hsync ⟨e, he, rfl⟩]
      exact hl.2
    · refine (live_other he' (ht ▸ hu)).2 (hb (fun e'' he'' => ?_) ((live_other he hu).1 h))
      rw [he] at he''
      rw [← Option.some.inj he'']
      exact hu

theorem CondState.Live.beside (h : s.Live u) (hph : s.phase.enq = none) (hne : ∀ e, s'.phase.enq = some e → e.thread ≠ u)
    (hb : s.kernel.BlockedOn .cond u → s'.kernel.BlockedOn .cond u) : s'.Live u := by
  have hb' := hb ((live_idle hph).1 h)
  cases he : s'.phase.enq with
  | none => exact (live_idle he).2 hb'
  | some e => exact (live_other he (hne e he)).2 hb'

theorem CondState.Live.ne_ready (h : s.Live u) (hph : s.phase.enq = none) (hr : s.kernel.Ready t) : u ≠ t := by
  rintro rfl
  exact ((live_idle hph).1 h).1 hr

/-! ## The invariant -/

/-- The thread between the test of its wait and the queue. -/
def CondPhase.waiter : CondPhase T M → Option (CondWaiter T M)
  | .unlocking _ wait => wait
  | .unlocked c | .bound c => some c
  | .idle | .inheriting _ | .entering _ | .signalling _ | .clearing => none

/-- A signal that ends with the mutex unbound. -/
def CondState.Broadcasting (s : CondState T M) : Prop := s.phase = .signalling true ∨ s.phase = .clearing ∨ s.handler = some true

/-- **The mutex is that of a thread that waits**, or of the one about to; or it will soon be unbound. -/
def CondState.Bound (s : CondState T M) (m : M) : Prop :=
  (∃ u, s.Live u ∧ s.calls u = .waiting (some m)) ∨ (∃ c, s.phase = .bound c ∧ c.mutex = some m) ∨ s.Broadcasting

/-- **What every run keeps.** -/
structure CondInv (s : CondState T M) : Prop where
  tq : ∃ Qs, TqInv s.kernel Qs s.phase.enq
  settled : SettledThreads s.kernel
  fresh : ∀ e, s.phase = .inheriting e → e.pc = .setstate
  waiter : ∀ c, s.phase.waiter = some c →
    s.kernel.executing = c.thread ∧ s.kernel.Ready c.thread ∧ s.calls c.thread = .waiting c.mutex
  bound : ∀ m, s.lock = some m → s.Bound m

theorem CondInv.live_of_idle (h : CondInv s) (hph : s.phase = .idle) (hh : s.handler = none) (hl : s.lock = some m) :
    ∃ u, s.Live u ∧ s.calls u = .waiting (some m) := by
  rcases h.bound m hl with hlive | ⟨c, hc, -⟩ | hb
  · exact hlive
  · rw [hph] at hc
    cases hc
  · rcases hb with hb | hb | hb
    · rw [hph] at hb
      cases hb
    · rw [hph] at hb
      cases hb
    · rw [hh] at hb
      cases hb

theorem SettledThreads.switch (h : SettledThreads k) (t : T) : SettledThreads { k with executing := t } := h

/-- **The rule for the calls of a thread**: its kernel steps leave the condition variable alone, and it was not among those that wait. -/
theorem CondInv.acts (h : CondInv s) (hf : s.MayAct t) (hk : ({ s.kernel with executing := t } : Kernel T (CondQueue M)).Apart
      s'.kernel .cond s'.phase.enq)
    (hent : ∀ e, s'.phase.enq = some e → e.thread = t) (hlock : s'.lock = s.lock)
    (hcalls : ∀ u, u ≠ t → s'.calls u = s.calls u) (hfresh : ∀ e, s'.phase = .inheriting e → e.pc = .setstate)
    (hwaiter : ∀ c, s'.phase.waiter = some c → c.thread = t ∧ s'.calls t = .waiting c.mutex) : CondInv s' := by
  obtain ⟨hph, hh, hr⟩ := hf
  have henq : s.phase.enq = none := by rw [hph]; rfl
  refine ⟨hk.inv, hk.leaves.settled h.settled, hfresh, fun c hc => ?_, fun m hm => ?_⟩
  · obtain ⟨rfl, hw⟩ := hwaiter c hc
    exact ⟨hk.leaves.exec, hk.leaves.ready _ hr, hw⟩
  · rw [hlock] at hm
    obtain ⟨u, hu, hcall⟩ := h.live_of_idle hph hh hm
    have hne : u ≠ t := hu.ne_ready henq hr
    refine .inl ⟨u, hu.beside henq (fun e he => ?_) (hk.leaves.blocked u nofun), (hcalls u hne).trans hcall⟩
    rw [hent e he]
    exact hne.symm

/-! ## Calls that begin, and go on -/

theorem CondInv.switch (h : CondInv s) (hf : s.MayAct t) : ∃ Qs, TqInv { s.kernel with executing := t } Qs none := by
  obtain ⟨Qs, hq⟩ := h.tq
  rw [show s.phase.enq = none by rw [hf.1]; rfl] at hq
  exact ⟨Qs, TqInv.switch hq t⟩

theorem setCall_ne (s : CondState T M) {t u : T} (call : CondCall M) (hu : u ≠ t) : (s.setCall t call).calls u = s.calls u :=
  Function.update_of_ne hu ..

theorem setCall_self (s : CondState T M) (t : T) (call : CondCall M) : (s.setCall t call).calls t = call := Function.update_self ..

theorem CondInv.lockCall (h : CondInv s) (hf : s.MayAct t) (mutex : Option M) (call : MutexCall) : CondInv (s.lockCall t mutex call) := by
  obtain ⟨Qs, hq⟩ := h.switch hf
  unfold CondState.lockCall
  cases s.open mutex with
  | none =>
    have hidle : ((s.switch t).setCall t .none).phase = .idle := hf.1
    show CondInv ((s.switch t).setCall t .none)
    refine h.acts hf ?_ (fun e he => ?_) rfl (fun u hu => setCall_ne _ _ hu) (fun e he => ?_) (fun c hc => ?_)
    · rw [hidle]
      exact .refl hq
    · rw [hidle] at he
      cases he
    · rw [hidle] at he
      cases he
    · rw [hidle] at hc
      cases hc
  | some mp =>
    obtain ⟨m, p⟩ := mp
    have hseize := hq.apart_seize (h.settled.switch t) (c := .cond) (w := .mutex m) (nofun) hf.2.2 p call.waitStatus call.timeout
    dsimp only
    revert hseize
    rcases lwpMutexSeize { s.kernel with executing := t } p (.mutex m) call.waitStatus call.timeout with ⟨k', p', e⟩
    rintro ⟨hk, he⟩
    dsimp only at hk he ⊢
    have hph : ((e.map CondPhase.inheriting).getD .idle : CondPhase T M).enq = e := by cases e <;> rfl
    refine h.acts hf ?_ (fun e' he' => ?_) rfl (fun u hu => setCall_ne _ _ hu) (fun e' he' => ?_) (fun c hc => ?_)
    · dsimp only
      rw [hph]
      exact hk
    · dsimp only at he'
      rw [hph] at he'
      rw [he e' he']
    · have henq := congrArg CondPhase.enq he'
      dsimp only at henq
      rw [hph] at henq
      rw [he e' henq]
    · cases e with
      | none => cases hc
      | some e => cases hc

theorem afterUnlock_waiter (wait : Option (CondWaiter T M)) : (CondPhase.afterUnlock wait).waiter = wait := by cases wait <;> rfl

theorem afterUnlock_enq (wait : Option (CondWaiter T M)) : (CondPhase.afterUnlock wait).enq = none := by cases wait <;> rfl

theorem afterUnlock_ne (wait : Option (CondWaiter T M)) (e : Enq T (CondQueue M)) : CondPhase.afterUnlock wait ≠ .inheriting e := by
  cases wait <;> exact nofun

theorem CondInv.unlockCall_apart (h : CondInv s) (hf : s.MayAct t) (mutex : Option M) (wait : Option (CondWaiter T M)) :
    ({ s.kernel with executing := t } : Kernel T (CondQueue M)).Apart (s.unlockCall t mutex wait).kernel .cond none ∧
      (s.unlockCall t mutex wait).phase.enq = none ∧ (s.unlockCall t mutex wait).phase.waiter = wait ∧
      (∀ e, (s.unlockCall t mutex wait).phase ≠ .inheriting e) ∧ (s.unlockCall t mutex wait).lock = s.lock ∧
      (s.unlockCall t mutex wait).calls = s.calls := by
  obtain ⟨Qs, hq⟩ := h.switch hf
  unfold CondState.unlockCall
  cases s.open mutex with
  | none => exact ⟨.refl hq, afterUnlock_enq wait, afterUnlock_waiter wait, afterUnlock_ne wait, rfl, rfl⟩
  | some mp =>
    obtain ⟨m, p⟩ := mp
    have hrel := hq.apart_release (h.settled.switch t) (c := .cond) p
    dsimp only
    revert hrel
    rcases lwpMutexRelease { s.kernel with executing := t } p with ⟨k', p', status⟩
    intro hk
    dsimp only at hk ⊢
    split
    · exact ⟨hk, afterUnlock_enq wait, afterUnlock_waiter wait, afterUnlock_ne wait, rfl, rfl⟩
    · exact ⟨hk, rfl, rfl, nofun, rfl, rfl⟩

theorem CondInv.unlock (h : CondInv s) (hf : s.MayAct t) (mutex : Option M) : CondInv (s.unlockCall t mutex none) := by
  obtain ⟨hk, henq, hw, hfr, hlock, hcalls⟩ := h.unlockCall_apart hf mutex none
  refine h.acts hf (by rw [henq]; exact hk) (fun e he => ?_) hlock (fun u _ => by rw [hcalls]) (fun e he => absurd he (hfr e))
    fun c hc => ?_
  · rw [henq] at he
    cases he
  · rw [hw] at hc
    cases hc

theorem CondInv.wait (h : CondInv s) (hf : s.MayAct t) (mutex : Option M) (call : CondWait) :
    CondInv ((s.unlockCall t mutex (some ⟨t, mutex, call⟩)).setCall t (.waiting mutex)) := by
  obtain ⟨hk, henq, hw, hfr, hlock, hcalls⟩ := h.unlockCall_apart hf mutex (some ⟨t, mutex, call⟩)
  set s' := (s.unlockCall t mutex (some ⟨t, mutex, call⟩)).setCall t (.waiting mutex) with hs'
  have hself : s'.calls t = .waiting mutex := setCall_self ..
  have hphase : s'.phase = (s.unlockCall t mutex (some ⟨t, mutex, call⟩)).phase := rfl
  refine h.acts hf (by rw [hphase, henq]; exact hk) (fun e he => ?_) hlock (fun u hu => ?_) (fun e he => absurd he (hfr e))
    fun c hc => ?_
  · rw [hphase, henq] at he
    cases he
  · exact (setCall_ne _ _ hu).trans (by rw [hcalls])
  · rw [hphase, hw] at hc
    obtain rfl := Option.some.inj hc
    exact ⟨rfl, hself⟩

theorem CondInv.refused (h : CondInv s) (hf : s.MayAct t) : CondInv (s.switch t) := by
  obtain ⟨Qs, hq⟩ := h.switch hf
  have hph : (s.switch t).phase = .idle := hf.1
  refine h.acts hf (by rw [hph]; exact .refl hq) (fun e he => ?_) rfl (fun _ _ => rfl) (fun e he => ?_) fun c hc => ?_
  · rw [hph] at he
    cases he
  · rw [hph] at he
    cases he
  · rw [hph] at hc
    cases hc

theorem CondInv.setCall (h : CondInv s) (hph : s.phase.enq = none) (hw : s.phase.waiter = none) (hr : s.kernel.Ready t)
    (call : CondCall M) : CondInv (s.setCall t call) := by
  refine ⟨h.tq, h.settled, h.fresh, fun c hc => ?_, fun m hm => ?_⟩
  · rw [show (s.setCall t call).phase = s.phase from rfl, hw] at hc
    cases hc
  · refine (h.bound m hm).imp (fun ⟨u, hu, hcall⟩ => ⟨u, hu, ?_⟩) id
    exact (setCall_ne _ _ (hu.ne_ready hph hr)).trans hcall

theorem CondInv.signal (h : CondInv s) (hf : s.MayAct t) (isbroadcast : Bool) :
    CondInv { s.switch t with phase := .signalling isbroadcast } := by
  obtain ⟨Qs, hq⟩ := h.switch hf
  exact h.acts hf (.refl hq) (fun e he => nomatch he) rfl (fun _ _ => rfl) (fun e he => nomatch he) fun c hc => nomatch hc

/-! ## Steps of a thread inside a call -/

/-- A phase in which a bound mutex has its thread. -/
def CondPhase.Steady (ph : CondPhase T M) : Prop := (∀ c, ph ≠ .bound c) ∧ ph ≠ .signalling true ∧ ph ≠ .clearing

theorem CondInv.live_of_steady (h : CondInv s) (hst : s.phase.Steady) (hm : s.lock = some m) :
    (∃ u, s.Live u ∧ s.calls u = .waiting (some m)) ∨ s.handler = some true := by
  rcases h.bound m hm with hlive | ⟨c, hc, -⟩ | hb | hb | hb
  · exact .inl hlive
  · exact absurd hc (hst.1 c)
  · exact absurd hb hst.2.1
  · exact absurd hb hst.2.2
  · exact .inr hb

/-- **The rule for the steps inside a call** that leave the condition variable alone. -/
theorem CondInv.steps (h : CondInv s) (hst : s.phase.Steady) (hk : s.kernel.Apart s'.kernel .cond s'.phase.enq)
    (hph : s'.phase.enq.map (fun e => (e.thread, e.queue)) = s.phase.enq.map fun e => (e.thread, e.queue))
    (hlock : s'.lock = s.lock) (hcalls : s'.calls = s.calls) (hhandler : s'.handler = s.handler)
    (hfresh : ∀ e, s'.phase ≠ .inheriting e) (hwaiter : ∀ c, s'.phase.waiter = some c → s.phase.waiter = some c) : CondInv s' := by
  refine ⟨hk.inv, hk.leaves.settled h.settled, fun e he => absurd he (hfresh e), fun c hc => ?_, fun m hm => ?_⟩
  · obtain ⟨h1, h2, h3⟩ := h.waiter c (hwaiter c hc)
    exact ⟨hk.leaves.exec.trans h1, hk.leaves.ready _ h2, by rw [hcalls]; exact h3⟩
  · rcases h.live_of_steady hst (hlock ▸ hm) with ⟨u, hu, hcall⟩ | hb
    · exact .inl ⟨u, hu.mono hph (fun _ => hk.leaves.blocked u nofun) fun _ => hk.sync, by rw [hcalls]; exact hcall⟩
    · exact .inr (.inr (.inr (.inr (hhandler.trans hb))))

theorem CondInv.inherit (h : CondInv s) (hph : s.phase = .inheriting e) : CondInv (condNext s .inherit) := by
  have henq : s.phase.enq = some e := by rw [hph]; rfl
  have hsame : condNext s .inherit = s ∨ ∃ m p, condNext s .inherit =
      { s with kernel := (lwpMutexInherit s.kernel p).1, mutex := s.setMutex m (lwpMutexInherit s.kernel p).2, phase := .entering e } := by
    simp only [condNext, hph]
    cases e.queue with
    | cond => exact .inl rfl
    | mutex m =>
      cases hm : s.mutex m with
      | none => exact .inl (by simp only [hm])
      | some p => exact .inr ⟨m, p, by simp only [hm]⟩
  rcases hsame with he | ⟨m, p, he⟩
  · rw [he]
    exact h
  obtain ⟨Qs, hq⟩ := h.tq
  rw [henq] at hq
  rw [he]
  exact h.steps (by rw [hph]; exact ⟨nofun, nofun, nofun⟩) (hq.apart_inherit h.settled (h.fresh e hph) p) (by rw [henq]; rfl) rfl rfl rfl
    nofun nofun

theorem CondInv.handover (h : CondInv s) {wait : Option (CondWaiter T M)} (hph : s.phase = .unlocking m wait) :
    CondInv (condNext s .handover) := by
  have henq : s.phase.enq = none := by rw [hph]; rfl
  cases hm : s.mutex m with
  | none =>
    have he : condNext s .handover = s := by simp only [condNext, hph, hm]
    rw [he]
    exact h
  | some p =>
    have he : condNext s .handover = { s with
        kernel := (lwpMutexHandover s.kernel p (.mutex m)).1, mutex := s.setMutex m (lwpMutexHandover s.kernel p (.mutex m)).2
        phase := .afterUnlock wait } := by simp only [condNext, hph, hm]
    obtain ⟨Qs, hq⟩ := h.tq
    rw [henq] at hq
    have hk := hq.apart_handover (c := .cond) (w := .mutex m) (nofun) p
    rw [← afterUnlock_enq wait] at hk
    rw [he]
    refine h.steps (by rw [hph]; exact ⟨nofun, nofun, nofun⟩) hk (by rw [henq]; exact congrArg _ (afterUnlock_enq wait)) rfl rfl rfl
      (afterUnlock_ne wait) fun c hc => ?_
    rw [hph]
    exact (afterUnlock_waiter wait).symm.trans hc

theorem CondInv.bind (h : CondInv s) {c : CondWaiter T M} (hph : s.phase = .unlocked c) : CondInv (condNext s .bind) := by
  have henq : s.phase.enq = none := by rw [hph]; rfl
  obtain ⟨hx, hr, hcall⟩ := h.waiter c (by rw [hph]; rfl)
  obtain ⟨Qs, hq⟩ := h.tq
  rw [henq] at hq
  have hst : s.phase.Steady := by
    rw [hph]
    exact ⟨nofun, nofun, nofun⟩
  simp only [condNext, hph]
  by_cases hd : c.call = .timedWait true
  · rw [if_pos hd]
    refine ⟨⟨Qs, hq⟩, h.settled, nofun, nofun, fun m hm => ?_⟩
    rcases h.live_of_steady hst hm with ⟨u, hu, hcu⟩ | hb
    · exact .inl ⟨u, hu.mono (by rw [henq]; rfl) (fun _ hb => hb) fun _ => rfl, (setCall_ne _ _ (hu.ne_ready henq hr)).trans hcu⟩
    · exact .inr (.inr (.inr (.inr hb)))
  · rw [if_neg hd]
    refine ⟨⟨Qs, hq⟩, h.settled, nofun, fun c' hc' => ?_, fun m hm => .inr (.inl ⟨c, rfl, hm⟩)⟩
    obtain rfl := Option.some.inj hc'
    exact ⟨hx, hr, hcall⟩

theorem CondInv.enter (h : CondInv s) {c : CondWaiter T M} (hph : s.phase = .bound c) : CondInv (condNext s .enter) := by
  have henq : s.phase.enq = none := by rw [hph]; rfl
  obtain ⟨hx, hr, hcall⟩ := h.waiter c (by rw [hph]; rfl)
  obtain ⟨Qs, hq⟩ := h.tq
  rw [henq] at hq
  have hin : TqInv (condEnter s.kernel c.thread) Qs (some ⟨c.thread, .cond, c.call.timeout, .setstate⟩) := by
    unfold condEnter
    exact hq.enter .cond c.call.timeout hx hr ⟨rfl, rfl, rfl⟩ rfl rfl rfl
  have hne : ∀ u, u ≠ c.thread → (condEnter s.kernel c.thread).thr u = s.kernel.thr u := fun u hu => setThr_thr_ne _ _ _ hu
  have hstate : ∀ u, ((condEnter s.kernel c.thread).thr u).curState = (s.kernel.thr u).curState := by
    intro u
    by_cases hu : u = c.thread
    · rw [hu, condEnter, setThr_thr_self]
      rfl
    · rw [hne u hu]
  have hsync : ((condEnter s.kernel c.thread).tq .cond).syncState = .nothinghappend := by
    simp [condEnter, lwpThreadqueueCsenter, Kernel.setTq, Kernel.setThr]
  simp only [condNext, hph]
  refine ⟨⟨Qs, hin⟩, fun u => ?_, fun c hc => (by cases hc), fun m hm => (by cases hm), fun m hm => ?_⟩
  · show lwpClearstate ((condEnter s.kernel c.thread).thr u).curState stTransient = ((condEnter s.kernel c.thread).thr u).curState
    rw [hstate]
    exact h.settled u
  · rcases h.bound m hm with ⟨u, hu, hcu⟩ | ⟨c', hc', hm'⟩ | hb | hb | hb
    · have hut : u ≠ c.thread := hu.ne_ready henq hr
      refine .inl ⟨u, hu.beside henq (fun e he => ?_) fun hb => ?_, hcu⟩
      · obtain rfl := Option.some.inj he
        exact hut.symm
      · show (condEnter s.kernel c.thread).BlockedOn .cond u
        rw [Kernel.BlockedOn, Kernel.Ready, hne u hut]
        exact hb
    · rw [hph] at hc'
      obtain rfl := CondPhase.bound.inj hc'
      refine .inl ⟨c.thread, ?_, hcall.trans (congrArg _ hm')⟩
      exact CondState.Live.of_entering (e := ⟨c.thread, .cond, c.call.timeout, .setstate⟩) rfl rfl hsync
    · rw [hph] at hb
      cases hb
    · rw [hph] at hb
      cases hb
    · exact .inr (.inr (.inr (.inr hb)))

/-! ## The way into a queue -/

theorem TqInv.settled_enq {k' : Kernel T (CondQueue M)} {Qs Qs' : QId T (CondQueue M) → Option (List T)}
    {o : Option (Enq T (CondQueue M))} (h' : TqInv k' Qs' o) (hf : EnqFrame k e k') (ho : EnqOutcome k Qs e k' Qs' o)
    (hset : SettledThreads k) : SettledThreads k' := by
  intro u
  by_cases hu : u = e.thread
  · subst hu
    have hwait : ∀ w, Waits Qs' w e.thread →
        lwpClearstate (k'.thr e.thread).curState stTransient = (k'.thr e.thread).curState := by
      intro w hw
      rw [(h'.waits w e.thread hw).1]
      exact (h'.state w).2.2.1
    have hready : k'.Ready e.thread → lwpClearstate (k'.thr e.thread).curState stTransient = (k'.thr e.thread).curState := by
      intro hr
      rw [hr]
      rfl
    cases ho with
    | going e' hthread hqueue _ _ _ =>
      have hok := h'.phase e' rfl
      by_cases hpc : e'.pc = .setstate
      · exact hready (hthread ▸ hok.ready hpc)
      · rw [← hthread, hok.blocked hpc]
        exact (h'.state e'.queue).2.2.1
    | linked _ hw _ => exact hwait e.queue ((hw e.queue e.thread).2 (.inr ⟨rfl, rfl⟩))
    | timedOut _ _ hr _ => exact hready hr
    | satisfied _ _ hr _ => exact hready hr
  · rw [hf.other u hu]
    exact hset u

theorem CondInv.enqueue (h : CondInv s) (hph : s.phase = .entering e) : CondInv (condNext s .enqueue) := by
  have henq : s.phase.enq = some e := by rw [hph]; rfl
  have hst : s.phase.Steady := by
    rw [hph]
    exact ⟨fun c hc => (by cases hc), fun hc => (by cases hc), fun hc => (by cases hc)⟩
  obtain ⟨Qs, hq⟩ := h.tq
  rw [henq] at hq
  obtain ⟨Qs', hq', hf, ho⟩ := hq.enqNext
  have hset := TqInv.settled_enq hq' hf ho h.settled
  simp only [condNext, hph]
  revert hq' hf ho hset
  rcases enqNext s.kernel e with ⟨k', o⟩
  intro hq' hf ho hset
  dsimp only at hq' hf ho hset ⊢
  have hother : ∀ u, u ≠ e.thread → s.kernel.BlockedOn .cond u → k'.BlockedOn .cond u := by
    intro u hu hb
    rw [Kernel.BlockedOn, Kernel.Ready, hf.other u hu]
    exact hb
  cases o with
  | some e' =>
    cases ho with
    | going _ ht hqueue htq _ _ =>
      refine ⟨⟨Qs', hq'⟩, hset, fun e he => (by cases he), fun c hc => (by cases hc), fun m hm => ?_⟩
      rcases h.live_of_steady hst hm with ⟨u, hu, hcall⟩ | hb
      · refine .inl ⟨u, hu.mono ?_ (fun hne => hother u (hne e henq).symm) fun _ => by rw [htq], hcall⟩
        rw [henq]
        exact congrArg some (Prod.ext ht hqueue)
      · exact .inr (.inr (.inr (.inr hb)))
  | none =>
    dsimp only
    -- the thread is on the queue, or is ready
    have hdone : ∀ k'', k'.Apart k'' .cond none → CondInv { s with kernel := k'', phase := .idle } := by
      intro k'' hk
      refine ⟨hk.inv, hk.leaves.settled hset, fun e he => (by cases he), fun c hc => (by cases hc), fun m hm => ?_⟩
      rcases h.live_of_steady hst hm with ⟨u, hu, hcall⟩ | hb
      · refine .inl ⟨u, (live_idle rfl).2 (hk.leaves.blocked u (fun hc => by cases hc) ?_), hcall⟩
        by_cases hut : u = e.thread
        · rw [hut] at hu ⊢
          obtain ⟨hqueue, hsync⟩ := (live_entering henq).1 hu
          rw [← hqueue] at hsync
          cases ho with
          | linked _ hw _ =>
            have hwait : Waits Qs' .cond e.thread := hqueue ▸ (hw e.queue e.thread).2 (.inr ⟨rfl, rfl⟩)
            exact ⟨hq'.not_ready hwait, (hq'.waits _ _ hwait).2⟩
          | timedOut hs =>
            rw [hsync] at hs
            cases hs
          | satisfied hs =>
            rw [hsync] at hs
            cases hs
        · exact hother u hut ((live_other henq (Ne.symm hut)).1 hu)
      · exact .inr (.inr (.inr (.inr hb)))
    cases e.queue with
    | cond => exact hdone k' (.refl hq')
    | mutex m =>
      dsimp only
      cases s.mutex m with
      | none => exact hdone k' (.refl hq')
      | some p => exact hdone _ (hq'.apart_ceiling hset p)

/-! ## Signals and timeouts -/

/-- The thread that a step takes off the queue, or off its way there. -/
def condTakes (s : CondState T M) : CondEvent T M → Option T
  | .round | .isrRound => (lwpThreadqueueDequeue s.kernel .cond).2
  | .expire t => some t
  | _ => none

/-- The last thread that waits with the mutex `m`. -/
def CondState.Last (s : CondState T M) (t : T) (m : M) : Prop :=
  s.Live t ∧ s.calls t = .waiting (some m) ∧ ∀ u, u ≠ t → s.Live u → s.calls u ≠ .waiting (some m)

/-- **A step that keeps the binding true**: no timeout and no single signal takes the last thread that waits with the bound mutex. -/
def condKeeps (s : CondState T M) (e : CondEvent T M) : Prop :=
  ¬ s.Broadcasting → ∀ t, condTakes s e = some t → ∀ m, s.lock = some m → ¬ s.Last t m

theorem CondInv.taken (h : CondInv s) {k' : Kernel T (CondQueue M)} {gone : Option T} {handler : Option Bool}
    (hq : ∃ Qs, TqInv k' Qs s.phase.enq) (hl : s.kernel.Leaves k' .cond gone)
    (hsync : ∀ e, s.phase.enq = some e → gone ≠ some e.thread → (k'.tq .cond).syncState = (s.kernel.tq .cond).syncState)
    (hkeep : ¬ s.Broadcasting → ∀ t, gone = some t → ∀ m, s.lock = some m → ¬ s.Last t m)
    (hh : s.handler = some true → handler = some true) : CondInv { s with kernel := k', handler := handler } := by
  refine ⟨hq, hl.settled h.settled, h.fresh, fun c hc => ?_, fun m hm => ?_⟩
  · obtain ⟨h1, h2, h3⟩ := h.waiter c hc
    exact ⟨hl.exec.trans h1, hl.ready _ h2, h3⟩
  by_cases hb : s.Broadcasting
  · exact .inr (.inr (hb.imp id (.imp id hh)))
  rcases h.bound m hm with ⟨u, hu, hcall⟩ | hbound | hb'
  · -- another thread when this one is taken
    obtain ⟨v, hv, hlive, hcv⟩ : ∃ v, gone ≠ some v ∧ s.Live v ∧ s.calls v = .waiting (some m) := by
      by_cases hg : gone = some u
      · by_contra hno
        refine hkeep hb u hg m hm ⟨hu, hcall, fun v hne hlv hcv => hno ⟨v, fun he => ?_, hlv, hcv⟩⟩
        rw [hg] at he
        exact hne (Option.some.inj he).symm
      · exact ⟨u, hg, hu, hcall⟩
    refine .inl ⟨v, hlive.mono rfl (fun _ => hl.blocked v hv) fun ⟨e, he, hev⟩ => hsync e he ?_, hcv⟩
    rw [hev]
    exact hv
  · exact .inr (.inl hbound)
  · exact absurd hb' hb

theorem CondInv.dequeue (h : CondInv s) :
    (∃ Qs, TqInv (lwpThreadqueueDequeue s.kernel .cond).1 Qs s.phase.enq) ∧
      ∀ e, s.phase.enq = some e → (lwpThreadqueueDequeue s.kernel .cond).2 ≠ some e.thread →
        ((lwpThreadqueueDequeue s.kernel .cond).1.tq .cond).syncState = (s.kernel.tq .cond).syncState := by
  obtain ⟨Qs, hq⟩ := h.tq
  obtain ⟨Qs', hq', hd⟩ := hq.dequeue .cond
  refine ⟨⟨Qs', hq'⟩, fun e he hne => ?_⟩
  revert hd hne
  rcases lwpThreadqueueDequeue s.kernel .cond with ⟨k', o⟩
  intro hd hne
  cases hd with
  | took t _ _ _ _ htq => rw [show k'.tq = s.kernel.tq from htq]
  | early e' he' =>
    rw [he] at he'
    exact absurd (by rw [Option.some.inj he']) hne
  | nobody _ _ _ hk => rw [show k' = s.kernel from hk]

theorem CondInv.round (h : CondInv s) {isbroadcast : Bool} (hph : s.phase = .signalling isbroadcast)
    (hkeep : condKeeps s .round) : CondInv (condNext s .round) := by
  have henq : s.phase.enq = none := by rw [hph]; rfl
  obtain ⟨Qs, hq⟩ := h.tq
  have hl := hq.dequeue_leaves .cond .cond
  obtain ⟨hq', hsync⟩ := h.dequeue
  have hk : ¬ s.Broadcasting → ∀ t, (lwpThreadqueueDequeue s.kernel .cond).2 = some t → ∀ m, s.lock = some m → ¬ s.Last t m := hkeep
  simp only [condNext, hph]
  revert hl hq' hsync hk
  rcases lwpThreadqueueDequeue s.kernel .cond with ⟨k', o⟩
  intro hl hq' hsync hk
  dsimp only at hl hq' hsync hk ⊢
  rw [henq] at hq'
  cases o with
  | none => exact ⟨hq', hl.settled h.settled, nofun, nofun, fun _ _ => .inr (.inr (.inr (.inl rfl)))⟩
  | some t =>
    cases isbroadcast with
    | true => exact ⟨hq', hl.settled h.settled, nofun, nofun, fun _ _ => .inr (.inr (.inl rfl))⟩
    | false =>
      have hst : s.phase.Steady := by
        rw [hph]
        exact ⟨nofun, nofun, nofun⟩
      obtain ⟨Qs', hq''⟩ := hq'
      have h' : CondInv { s with kernel := k' } := h.taken ⟨Qs', by rw [henq]; exact hq''⟩ hl hsync hk id
      exact h'.steps hst (.refl hq'') (congrArg _ henq.symm) rfl rfl rfl nofun nofun

theorem CondInv.isrRound (h : CondInv s) (hkeep : condKeeps s .isrRound) : CondInv (condNext s .isrRound) := by
  obtain ⟨Qs, hq⟩ := h.tq
  have hl := hq.dequeue_leaves .cond .cond
  obtain ⟨hq', hsync⟩ := h.dequeue
  have hk : ¬ s.Broadcasting → ∀ t, (lwpThreadqueueDequeue s.kernel .cond).2 = some t → ∀ m, s.lock = some m → ¬ s.Last t m := hkeep
  simp only [condNext]
  revert hl hq' hsync hk
  rcases lwpThreadqueueDequeue s.kernel .cond with ⟨k', o⟩
  intro hl hq' hsync hk
  dsimp only at hl hq' hsync hk ⊢
  cases o with
  | none =>
    refine ⟨hq', hl.settled h.settled, h.fresh, fun c hc => ?_, nofun⟩
    obtain ⟨h1, h2, h3⟩ := h.waiter c hc
    exact ⟨hl.exec.trans h1, hl.ready _ h2, h3⟩
  | some t => exact h.taken hq' hl hsync hk fun hb => if_pos hb

theorem CondInv.expire (h : CondInv s) (ha : (s.kernel.thr t).timer = .active) (hkeep : condKeeps s (.expire t)) :
    CondInv (condNext s (.expire t)) := by
  obtain ⟨Qs, hq⟩ := h.tq
  obtain ⟨Qs', hq', he⟩ := hq.tickle ha
  have hk : ¬ s.Broadcasting → ∀ u, some t = some u → ∀ m, s.lock = some m → ¬ s.Last u m := hkeep
  refine h.taken ⟨Qs', hq'⟩ (hq.tickle_leaves ha .cond) (fun e hph hne => ?_) hk id
  cases he with
  | took _ _ _ _ _ htq => rw [htq]
  | noted e' he' ht =>
    rw [hph] at he'
    rw [Option.some.inj he', ht] at hne
    exact absurd rfl hne

/-! ## Every run -/

theorem condNext_inv (h : CondInv s) {e : CondEvent T M} (hg : condGuard s e) (hk : condKeeps s e) : CondInv (condNext s e) := by
  cases e with
  | lock t mutex call => exact h.lockCall hg.1 mutex call
  | inherit =>
    have hat : s.phase.at .inherit = true := hg.2
    cases hph : s.phase with
    | inheriting e => exact h.inherit hph
    | _ => rw [hph] at hat; cases hat
  | enqueue =>
    have hat : s.phase.at .enqueue = true := hg.2
    cases hph : s.phase with
    | entering e => exact h.enqueue hph
    | _ => rw [hph] at hat; cases hat
  | ret t => exact h.setCall (by rw [hg.1.1]; rfl) (by rw [hg.1.1]; rfl) hg.1.2.2 _
  | unlock t mutex => exact h.unlock hg.1 mutex
  | handover =>
    have hat : s.phase.at .handover = true := hg.2
    cases hph : s.phase with
    | unlocking m wait => exact h.handover hph
    | _ => rw [hph] at hat; cases hat
  | wait t mutex call =>
    simp only [condNext]
    split
    · exact h.refused hg.1
    · exact h.wait hg.1 mutex call
  | bind =>
    have hat : s.phase.at .bind = true := hg.2
    cases hph : s.phase with
    | unlocked c => exact h.bind hph
    | _ => rw [hph] at hat; cases hat
  | enter =>
    have hat : s.phase.at .enter = true := hg.2
    cases hph : s.phase with
    | bound c => exact h.enter hph
    | _ => rw [hph] at hat; cases hat
  | wake t =>
    obtain ⟨hf, hw⟩ := hg
    obtain ⟨mutex, hc⟩ : ∃ mutex, s.calls t = .waiting mutex := by
      cases hc : s.calls t with
      | waiting mutex => exact ⟨mutex, rfl⟩
      | _ => rw [hc] at hw; cases hw
    simp only [condNext, hc]
    split
    · exact h.setCall (by rw [hf.1]; rfl) (by rw [hf.1]; rfl) hf.2.2 _
    · exact h.lockCall hf mutex .lock
  | relock t =>
    obtain ⟨hf, hw⟩ := hg
    obtain ⟨mutex, hc⟩ : ∃ mutex, s.calls t = .relocking mutex := by
      cases hc : s.calls t with
      | relocking mutex => exact ⟨mutex, rfl⟩
      | _ => rw [hc] at hw; cases hw
    simp only [condNext, hc]
    exact h.lockCall hf mutex .lock
  | signal t isbroadcast => exact h.signal hg.1 isbroadcast
  | round =>
    have hat : s.phase.at .round = true := hg.2
    cases hph : s.phase with
    | signalling isbroadcast => exact h.round hph hk
    | _ => rw [hph] at hat; cases hat
  | clear =>
    have hq := h.tq
    have hat : s.phase.at .clear = true := hg.2
    cases hph : s.phase with
    | clearing =>
      rw [hph] at hq
      exact ⟨hq, h.settled, nofun, nofun, nofun⟩
    | _ => rw [hph] at hat; cases hat
  | isrSignal isbroadcast =>
    have hh : s.handler = none := hg
    refine ⟨h.tq, h.settled, h.fresh, h.waiter, fun m hm => (h.bound m hm).imp id (.imp id (.imp id (.imp id fun hb => ?_)))⟩
    rw [hh] at hb
    cases hb
  | isrRound => exact h.isrRound hk
  | expire t => exact h.expire hg.2 hk

/-- The queue of the condition variable, and those of the mutexes. -/
def condQueues : CondQueue M → ThrQueue
  | .cond => ⟨.synchronized, .fifo, stWaitingForCondvar, condTimedout⟩
  | .mutex _ => ⟨.synchronized, .priority, stWaitingForMutex, mutexTimeout⟩

theorem condQueues_state (w : CondQueue M) : WaitState (condQueues w).state := by
  have hc : WaitState stWaitingForCondvar := by decide
  have hm : WaitState stWaitingForMutex := by decide
  cases w
  · exact hc
  · exact hm

theorem condStart_kernel (k : Kernel T (CondQueue M)) (ms : List M) (isMutex useRecursive : M → Bool) :
    (condStart k ms isMutex useRecursive).kernel = threadqueuesInit condQueues (ms.map .mutex ++ [.cond]) k := by
  have hms : ∀ (ms : List M) (k : Kernel T (CondQueue M)), ms.foldl
      (fun k m => (lwpMutexInitialize k (.mutex m) (mutexAttr (useRecursive m))).1) k = threadqueuesInit condQueues (ms.map .mutex) k := by
    intro ms
    induction ms with
    | nil => exact fun _ => rfl
    | cons m ms ih => exact fun k => ih _
  unfold condStart threadqueuesInit
  dsimp only
  rw [hms, List.foldl_append]
  rfl

theorem threadqueuesInit_state {W : Type} [DecidableEq W] (cfg : W → ThrQueue) : ∀ (ws : List W) (k : Kernel T W) (u : T),
    ((threadqueuesInit cfg ws k).thr u).curState = (k.thr u).curState
  | [], _, _ => rfl
  | w :: ws, k, u => by
    have := threadqueuesInit_state cfg ws (lwpThreadqueueInit k w (cfg w).mode (cfg w).state (cfg w).timeoutStatus) u
    rw [lwpThreadqueueInit_thr] at this
    exact this

theorem CondInv.start {idle : T} {ms : List M} (hk : SchedState idle k) (ht : ∀ t, (k.thr t).timer ≠ .active)
    (hset : SettledThreads k) (hms : ∀ m, m ∈ ms) (isMutex useRecursive : M → Bool) : CondInv (condStart k ms isMutex useRecursive) := by
  obtain ⟨Qs₀, hb⟩ := hk.booting ht condQueues
  obtain ⟨Qs, h'⟩ := Booting.inits (ms.map .mutex ++ [.cond]) hb
  have hall : ∀ w : CondQueue M, w ∈ ms.map CondQueue.mutex ++ [.cond] := by
    intro w
    cases w with
    | cond => simp
    | mutex m => simp [hms m]
  obtain ⟨htq, -⟩ := h'.ok hall condQueues_state
  refine ⟨⟨Qs, by rw [condStart_kernel]; exact htq⟩, fun u => ?_, nofun, nofun, nofun⟩
  rw [condStart_kernel, threadqueuesInit_state]
  exact hset u

/-- **A wait is rejected only for a mutex that another thread waits with.**  In every run of the calls of a condition variable and of
mutexes, of interrupt handlers that signal and broadcast, and of expiring timers, in which no timeout and no single signal takes the last
thread that waits with the bound mutex: a wait that is refused for its mutex finds a thread blocked on the condition variable with
another one. -/
theorem cond_binding (k : Kernel T (CondQueue M)) (idle : T) (ms : List M) (isMutex useRecursive : M → Bool) (es : List (CondEvent T M))
    (s : CondState T M) (hk : SchedState idle k) (ht : ∀ t, (k.thr t).timer ≠ .active) (hset : SettledThreads k) (hms : ∀ m, m ∈ ms)
    (hes : (condSystem.restrict condKeeps).Legal (condStart k ms isMutex useRecursive) es)
    (hs : s = condSystem.run (condStart k ms isMutex useRecursive) es) (t : T) (m : M) (call : CondWait)
    (hg : condGuard s (.wait t (some m) call)) (hrej : s.Rejects (some m)) :
    ∃ u m', m' ≠ m ∧ s.calls u = .waiting (some m') ∧ s.kernel.BlockedOn .cond u := by
  have h : CondInv s := by
    have hrun : s = (condSystem.restrict condKeeps).run (condStart k ms isMutex useRecursive) es := hs
    rw [hrun]
    refine System.Legal.invariant (I := CondInv) (fun _ _ h hg => ?_) (.start hk ht hset hms isMutex useRecursive) hes
    exact condNext_inv h hg.1 hg.2
  obtain ⟨hlock, hne⟩ := hrej
  obtain ⟨m', hm'⟩ := Option.ne_none_iff_exists'.1 hlock
  obtain ⟨u, hu, hcall⟩ := h.live_of_idle hg.1.1 hg.1.2.1 hm'
  refine ⟨u, m', fun he => hne (he ▸ hm'), hcall, (live_idle ?_).1 hu⟩
  rw [hg.1.1]
  rfl

/-! ## Runs -/

section Decide

instance (k : Kernel T (CondQueue M)) (c : CondQueue M) (u : T) : Decidable (k.BlockedOn c u) := inferInstanceAs (Decidable (_ ∧ _))

instance instDecidableCondLive (s : CondState T M) (u : T) : Decidable (s.Live u) :=
  match h : s.phase.enq with
  | none => decidable_of_iff _ (live_idle h).symm
  | some e =>
    if hu : e.thread = u then
      decidable_of_iff (e.queue = .cond ∧ (s.kernel.tq .cond).syncState = .nothinghappend) (by rw [← hu]; exact (live_entering h).symm)
    else decidable_of_iff _ (live_other h hu).symm

instance (s : CondState T M) : Decidable s.Broadcasting := inferInstanceAs (Decidable (_ ∨ _ ∨ _))

variable [Fintype T] [Fintype M]

instance (s : CondState T M) (t : T) (m : M) : Decidable (s.Last t m) :=
  inferInstanceAs (Decidable (_ ∧ _ ∧ ∀ u, u ≠ t → s.Live u → s.calls u ≠ .waiting (some m)))

instance (s : CondState T M) (e : CondEvent T M) : Decidable (condKeeps s e) :=
  inferInstanceAs (Decidable (¬ _ → ∀ t, condTakes s e = some t → ∀ m, s.lock = some m → ¬ s.Last t m))

end Decide

end Inv

/-- Three started threads, with no thread queue yet. -/
def condSampleKernel : Kernel (Fin 3) (CondQueue Bool) :=
  (schedSystem (CondQueue Bool) (0 : Fin 3)).run (lwpSysinit (threadsInit (zeroKernel (Fin 3) (CondQueue Bool) 0)
    (fun t => if t = 1 then 10 else 190) (fun _ => true)) 0) [.ready 1, .ready 2]

theorem condSampleKernel_sched : SchedState 0 condSampleKernel := by
  refine System.Legal.invariant (I := SchedState 0) (fun _ _ hs he => schedNext_state hs he) (lwpSysinit_state _ _ _ _) ?_
  decide +kernel

/-- A thread locks a mutex, and waits with it. -/
def condWaits (t : Fin 3) (m : Bool) (call : CondWait) : List (CondEvent (Fin 3) Bool) :=
  [.lock t (some m) .lock, .ret t, .wait t (some m) call, .handover, .bind, .enter, .enqueue, .enqueue, .enqueue]

/-- 1 waits with one mutex, and 2 holds the other. -/
def condSample : List (CondEvent (Fin 3) Bool) := condWaits 1 true .wait ++ [.lock 2 (some false) .lock, .ret 2]

theorem cond_binding_sample :
    (condSystem.restrict condKeeps).Legal (condStart condSampleKernel [true, false] (fun _ => true) id) condSample ∧
      ∃ u m', m' ≠ false ∧
        (condSystem.run (condStart condSampleKernel [true, false] (fun _ => true) id) condSample).calls u = .waiting (some m') ∧
        (condSystem.run (condStart condSampleKernel [true, false] (fun _ => true) id) condSample).kernel.BlockedOn .cond u := by
  have hl : (condSystem.restrict condKeeps).Legal (condStart condSampleKernel [true, false] (fun _ => true) id) condSample := by
    decide +kernel
  exact ⟨hl, cond_binding condSampleKernel 0 [true, false] (fun _ => true) id condSample _ condSampleKernel_sched (by decide +kernel)
    (by unfold SettledThreads; decide +kernel) (by decide) hl rfl 2 false .wait (by decide +kernel) (by decide +kernel)⟩

/-- 1 waits with one mutex until its time is over, and is done with it; then 2 takes the other. -/
def condTimeoutSample : List (CondEvent (Fin 3) Bool) :=
  condWaits 1 true (.timedWait false) ++
    [.expire 1, .wake 1, .ret 1, .unlock 1 (some true), .handover, .lock 2 (some false) .lock, .ret 2]

/-- **A mutex that nobody waits with any more** still refuses the others. -/
theorem cond_binding_stale : ∃ s : CondState (Fin 3) Bool,
    condSystem.Legal (condStart condSampleKernel [true, false] (fun _ => true) id) condTimeoutSample ∧
      s = condSystem.run (condStart condSampleKernel [true, false] (fun _ => true) id) condTimeoutSample ∧
      condGuard s (.wait 2 (some false) .wait) ∧ (s.mutex false).bind LwpMutex.holder = some 2 ∧ s.Rejects (some false) ∧
      ∀ u, ¬ s.kernel.BlockedOn .cond u := by
  obtain ⟨s, hs⟩ : ∃ s, s = condSystem.run (condStart condSampleKernel [true, false] (fun _ => true) id) condTimeoutSample := ⟨_, rfl⟩
  refine ⟨s, by decide +kernel, hs, ?_⟩
  rw [hs]
  decide +kernel

end Libogc
