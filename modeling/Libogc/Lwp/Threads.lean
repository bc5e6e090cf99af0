import Libogc.Lwp.Kernel
/-!
# Threads — what the scheduler's operations keep

`SchedInv k Qs`: the memory of `k` holds the queues `Qs`, a thread is on the ready queue of its priority exactly when it
is ready, and the bitmap marks exactly the priorities of ready threads.  `HeirOk k`: the heir is a ready thread of the
numerically smallest such priority.  Every operation is a change of one thread's control block with a matching change of
its ready queue (`SchedInv.extract`, `SchedInv.insert`), so each keeps `SchedInv` by one of two lemmas; the operations
that can lose the heir recompute it (`HeirOk.calcheir`).
-/
namespace Libogc

open Links

set_option linter.unusedSectionVars false

variable {T W : Type} [DecidableEq T] [DecidableEq W]

def Kernel.Ready (k : Kernel T W) (t : T) : Prop := (k.thr t).curState = stReady

instance (k : Kernel T W) (t : T) : Decidable (k.Ready t) := inferInstanceAs (Decidable (_ = _))

/-- Two control blocks of one thread that agree on everything the ready queues depend on but the state. -/
def Lwp.SamePrio (l l' : Lwp W) : Prop := l'.curPrio = l.curPrio ∧ l'.ready = l.ready ∧ l'.priomap = l.priomap

structure SchedInv (k : Kernel T W) (Qs : QId T W → Option (List T)) : Prop where
  rep : Rep k.mem Qs
  queue : ∀ p, ∃ xs, Qs (.ready p) = some xs ∧ ∀ t, t ∈ xs ↔ k.Ready t ∧ (k.thr t).curPrio = p
  fields : ∀ t, (k.thr t).ready = (k.thr t).curPrio ∧ (k.thr t).priomap = lwpPriomapInit (k.thr t).curPrio
  marks : Marks k.prio (fun p => ∃ t, k.Ready t ∧ (k.thr t).curPrio = p)

def HeirOk (k : Kernel T W) : Prop := ∃ h, k.heir = .node h ∧ k.Ready h ∧ ∀ t, k.Ready t → (k.thr h).curPrio ≤ (k.thr t).curPrio

/-- The queues other than the ready ones. -/
def SameWait (Qs Qs' : QId T W → Option (List T)) : Prop :=
  (∀ w i, Qs' (.wait w i) = Qs (.wait w i)) ∧ ∀ t, Qs' (.block2n t) = Qs (.block2n t)

theorem SameWait.refl (Qs : QId T W → Option (List T)) : SameWait Qs Qs := ⟨fun _ _ => rfl, fun _ => rfl⟩

variable {Qs : QId T W → Option (List T)} {k : Kernel T W} {t : T} {f : Lwp W → Lwp W} {p : Fin 256}

theorem SameWait.trans {Qs' Qs'' : QId T W → Option (List T)} (h : SameWait Qs Qs') (h' : SameWait Qs' Qs'') :
    SameWait Qs Qs'' := ⟨fun w i => (h'.1 w i).trans (h.1 w i), fun t => (h'.2 t).trans (h.2 t)⟩

theorem SameWait.update_ready (Qs : QId T W → Option (List T)) (p : Fin 256) (ys : List T) :
    SameWait Qs (Function.update Qs (.ready p) (some ys)) := by
  constructor
  · intro w i; rw [Function.update_of_ne (by simp)]
  · intro t; rw [Function.update_of_ne (by simp)]

/-! ## Fields the operations leave alone -/

section Fields
variable (k : Kernel T W) (t : T)

@[simp] theorem setThr_thr_self (f : Lwp W → Lwp W) : (k.setThr t f).thr t = f (k.thr t) := by simp [Kernel.setThr]
theorem setThr_thr_ne (f : Lwp W → Lwp W) {u : T} (h : u ≠ t) : (k.setThr t f).thr u = k.thr u := by
  simp [Kernel.setThr, h]
@[simp] theorem setThr_mem (f : Lwp W → Lwp W) : (k.setThr t f).mem = k.mem := rfl
@[simp] theorem setThr_prio (f : Lwp W → Lwp W) : (k.setThr t f).prio = k.prio := rfl
@[simp] theorem setThr_heir (f : Lwp W → Lwp W) : (k.setThr t f).heir = k.heir := rfl
@[simp] theorem setThr_executing (f : Lwp W → Lwp W) : (k.setThr t f).executing = k.executing := rfl
@[simp] theorem setThr_tq (f : Lwp W → Lwp W) : (k.setThr t f).tq = k.tq := rfl

@[simp] theorem lwpReadyExtract_thr : (lwpReadyExtract k t).thr = k.thr := by
  dsimp only [lwpReadyExtract]; split <;> rfl
@[simp] theorem lwpReadyExtract_heir : (lwpReadyExtract k t).heir = k.heir := by
  dsimp only [lwpReadyExtract]; split <;> rfl
@[simp] theorem lwpReadyExtract_executing : (lwpReadyExtract k t).executing = k.executing := by
  dsimp only [lwpReadyExtract]; split <;> rfl
@[simp] theorem lwpReadyExtract_tq : (lwpReadyExtract k t).tq = k.tq := by
  dsimp only [lwpReadyExtract]; split <;> rfl

@[simp] theorem lwpReadyAppend_thr : (lwpReadyAppend k t).thr = k.thr := rfl
@[simp] theorem lwpReadyAppend_heir : (lwpReadyAppend k t).heir = k.heir := rfl
@[simp] theorem lwpReadyAppend_executing : (lwpReadyAppend k t).executing = k.executing := rfl
@[simp] theorem lwpReadyAppend_tq : (lwpReadyAppend k t).tq = k.tq := rfl

@[simp] theorem lwpThreadPreempt_thr : (lwpThreadPreempt k t).thr = k.thr := by
  dsimp only [lwpThreadPreempt]; split <;> [skip; rfl]; split <;> rfl
@[simp] theorem lwpThreadPreempt_mem : (lwpThreadPreempt k t).mem = k.mem := by
  dsimp only [lwpThreadPreempt]; split <;> [skip; rfl]; split <;> rfl
@[simp] theorem lwpThreadPreempt_prio : (lwpThreadPreempt k t).prio = k.prio := by
  dsimp only [lwpThreadPreempt]; split <;> [skip; rfl]; split <;> rfl
@[simp] theorem lwpThreadPreempt_executing : (lwpThreadPreempt k t).executing = k.executing := by
  dsimp only [lwpThreadPreempt]; split <;> [skip; rfl]; split <;> rfl
@[simp] theorem lwpThreadPreempt_tq : (lwpThreadPreempt k t).tq = k.tq := by
  dsimp only [lwpThreadPreempt]; split <;> [skip; rfl]; split <;> rfl

end Fields

variable {k' k₀ : Kernel T W} {xs ys : List T} {s : BitVec 32}

/-- An operation that touches neither the memory, the control blocks nor the bitmap keeps the invariant. -/
theorem SchedInv.congr (h : SchedInv k Qs) (hm : k'.mem = k.mem) (ht : k'.thr = k.thr) (hp : k'.prio = k.prio) : SchedInv k' Qs := by
  refine ⟨hm ▸ h.rep, fun p => ?_, fun t => ht ▸ h.fields t, ?_⟩
  · obtain ⟨xs, hq, hxs⟩ := h.queue p
    exact ⟨xs, hq, fun t => by rw [hxs, Kernel.Ready, Kernel.Ready, ht]⟩
  · rw [hp]
    refine h.marks.congr fun p => ?_
    simp only [Kernel.Ready, ht]

theorem HeirOk.congr (h : HeirOk k) (ht : k'.thr = k.thr) (hh : k'.heir = k.heir) : HeirOk k' := by
  obtain ⟨x, h1, h2, h3⟩ := h
  refine ⟨x, hh.trans h1, ?_, fun t => ?_⟩
  · rw [Kernel.Ready, ht]; exact h2
  · rw [Kernel.Ready, ht]; exact h3 t

/-- A ready thread of a kernel is exactly one node of the ready queue of its priority. -/
theorem SchedInv.mem_ready (h : SchedInv k Qs) (ht : k.Ready t) : ∃ l₁ l₂, Qs (.ready (k.thr t).curPrio) = some (l₁ ++ t :: l₂) := by
  obtain ⟨xs, hq, hxs⟩ := h.queue (k.thr t).curPrio
  obtain ⟨l₁, l₂, rfl⟩ := List.append_of_mem ((hxs t).2 ⟨ht, rfl⟩)
  exact ⟨l₁, l₂, hq⟩

/-- **Taking a thread off its ready queue** while its state stops being ready. -/
theorem SchedInv.extract (h : SchedInv k Qs) (ht : k.Ready t) (hf : (k.thr t).SamePrio (f (k.thr t)))
    (hs : (f (k.thr t)).curState ≠ stReady) : ∃ Qs', SchedInv (lwpReadyExtract (k.setThr t f) t) Qs' ∧ Free Qs' t ∧ SameWait Qs Qs' := by
  obtain ⟨l₁, l₂, hq⟩ := h.mem_ready ht
  set p := (k.thr t).curPrio with hp
  have htl : t ∉ l₁ ++ l₂ := (List.nodup_cons.1 (List.nodup_middle.1 (h.rep.nodup hq))).1
  have hready : ((k.setThr t f).thr t).ready = p := by rw [setThr_thr_self, hf.2.1, (h.fields t).1]
  have hmap : ((k.setThr t f).thr t).priomap = lwpPriomapInit p := by rw [setThr_thr_self, hf.2.2, (h.fields t).2]
  have hreadyIff : ∀ u, (lwpReadyExtract (k.setThr t f) t).Ready u ↔ u ≠ t ∧ k.Ready u := by
    intro u
    rw [Kernel.Ready, lwpReadyExtract_thr]
    by_cases hu : u = t
    · subst hu; rw [setThr_thr_self]; exact ⟨fun h => absurd h hs, fun h => absurd rfl h.1⟩
    · rw [setThr_thr_ne _ _ _ hu]; exact ⟨fun h => ⟨hu, h⟩, fun h => h.2⟩
  have hprioEq : ∀ u, ((lwpReadyExtract (k.setThr t f) t).thr u).curPrio = (k.thr u).curPrio := by
    intro u
    rw [lwpReadyExtract_thr]
    by_cases hu : u = t
    · subst hu; rw [setThr_thr_self, hf.1]
    · rw [setThr_thr_ne _ _ _ hu]
  obtain ⟨xs0, hq0, hxs0⟩ := h.queue p
  rw [hq] at hq0
  cases hq0
  -- the memory: one node emptied the header, or the node was unlinked; the queue loses `t` either way
  have hrep : Rep (lwpReadyExtract (k.setThr t f) t).mem (Function.update Qs (.ready p) (some (l₁ ++ l₂))) := by
    dsimp only [lwpReadyExtract]
    rw [hready, setThr_mem]
    split
    · rename_i h1
      obtain ⟨x, hx⟩ := (lwpQueueOnenode_iff h.rep hq).1 h1
      have hnil : l₁ ++ l₂ = [] := by
        have := congrArg List.length hx
        simp only [List.length_append, List.length_cons, List.length_nil] at this
        rw [List.append_eq_nil_iff, ← List.length_eq_zero_iff, ← List.length_eq_zero_iff]
        omega
      rw [hnil]
      exact lwpQueueInitEmpty_rep h.rep _
    · exact lwpQueueExtractI_rep h.rep hq
  refine ⟨_, ⟨hrep, fun r => ?_, fun u => ?_, ?_⟩, ?_, SameWait.update_ready _ _ _⟩
  · by_cases hr : r = p
    · subst hr
      refine ⟨_, Function.update_self .., fun u => ?_⟩
      rw [hreadyIff, hprioEq]
      have := hxs0 u
      simp only [List.mem_append, List.mem_cons] at this htl ⊢
      by_cases hu : u = t
      · subst hu; simp [htl]
      · simp only [hu, ne_eq, not_false_eq_true, true_and, ← this, false_or]
    · obtain ⟨xs, hqr, hxs⟩ := h.queue r
      refine ⟨xs, by rw [Function.update_of_ne (by simpa using hr)]; exact hqr, fun u => ?_⟩
      rw [hreadyIff, hprioEq, hxs]
      constructor
      · rintro ⟨h1, h2⟩
        exact ⟨⟨fun e => hr (by rw [← h2, e]), h1⟩, h2⟩
      · rintro ⟨⟨-, h1⟩, h2⟩
        exact ⟨h1, h2⟩
  · rw [lwpReadyExtract_thr]
    by_cases hu : u = t
    · subst hu; rw [setThr_thr_self, hf.1, hf.2.1, hf.2.2]; exact h.fields u
    · rw [setThr_thr_ne _ _ _ hu]; exact h.fields u
  · -- the bitmap: the mark of `p` stays exactly when another ready thread has that priority
    by_cases h1 : lwpQueueOnenode k.mem (.ready p) = true
    · obtain ⟨x, hx⟩ := (lwpQueueOnenode_iff h.rep hq).1 h1
      have hk : (lwpReadyExtract (k.setThr t f) t).prio = lwpPriomapRemovefrom k.prio (lwpPriomapInit p) := by
        dsimp only [lwpReadyExtract]; rw [hready, setThr_mem, if_pos h1, hmap]; rfl
      rw [hk]
      refine (h.marks.removefrom p).congr fun r => ?_
      simp only [hreadyIff, hprioEq]
      constructor
      · rintro ⟨hr, u, hu, hup⟩
        exact ⟨u, ⟨fun e => hr (by rw [← hup, e]), hu⟩, hup⟩
      · rintro ⟨u, ⟨hu1, hu2⟩, hup⟩
        refine ⟨fun hr => hu1 ?_, u, hu2, hup⟩
        have hut : u ∈ [x] := by rw [← hx]; exact (hxs0 u).2 ⟨hu2, hup.trans hr⟩
        have htt : t ∈ [x] := by rw [← hx]; simp
        rw [List.mem_singleton] at hut htt
        rw [hut, htt]
    · have hk : (lwpReadyExtract (k.setThr t f) t).prio = k.prio := by
        dsimp only [lwpReadyExtract]; rw [hready, setThr_mem, if_neg h1]; rfl
      rw [hk]
      refine h.marks.congr fun r => ?_
      simp only [hreadyIff, hprioEq]
      constructor
      · rintro ⟨u, hu, hup⟩
        by_cases hut : u = t
        · -- another node of the queue takes the mark over
          subst hut
          have hlen : l₁ ++ l₂ ≠ [] := fun hnil => h1 ((lwpQueueOnenode_iff h.rep hq).2 ⟨u, by
            rw [List.append_eq_nil_iff] at hnil; rw [hnil.1, hnil.2]; rfl⟩)
          obtain ⟨v, hv⟩ := List.exists_mem_of_ne_nil _ hlen
          have hvm : v ∈ l₁ ++ u :: l₂ := by
            rw [List.mem_append] at hv ⊢; exact hv.imp id (List.mem_cons_of_mem _)
          obtain ⟨hvr, hvp⟩ := (hxs0 v).1 hvm
          exact ⟨v, ⟨fun e => htl (e ▸ hv), hvr⟩, hvp.trans hup⟩
        · exact ⟨u, ⟨hut, hu⟩, hup⟩
      · rintro ⟨u, ⟨-, hu⟩, hup⟩
        exact ⟨u, hu, hup⟩
  · exact h.rep.free_of_removed hq htl

/-- **Putting a free thread on the ready queue of its priority** while its state becomes ready. -/
theorem SchedInv.insert (h : SchedInv k Qs) (ht : ¬ k.Ready t) (hq : Qs (.ready p) = some xs)
    (hrep : Rep k'.mem (Function.update Qs (.ready p) (some ys))) (hys : ∀ u, u ∈ ys ↔ u = t ∨ u ∈ xs)
    (hprio : k'.prio = lwpPriomapAddto k.prio (lwpPriomapInit p)) (hother : ∀ u, u ≠ t → k'.thr u = k.thr u)
    (hst : (k'.thr t).curState = stReady) (hcp : (k'.thr t).curPrio = p) (hrd : (k'.thr t).ready = p)
    (hpm : (k'.thr t).priomap = lwpPriomapInit p) : SchedInv k' (Function.update Qs (.ready p) (some ys)) := by
  have hreadyIff : ∀ u r, (k'.Ready u ∧ (k'.thr u).curPrio = r) ↔ (u = t ∧ r = p) ∨ (k.Ready u ∧ (k.thr u).curPrio = r) := by
    intro u r
    by_cases hu : u = t
    · subst hu
      rw [hcp]
      exact ⟨fun h => .inl ⟨rfl, h.2.symm⟩, fun h => h.elim (fun h => ⟨hst, h.2.symm⟩) (fun h => absurd h.1 ht)⟩
    · simp [Kernel.Ready, hother u hu, hu]
  refine ⟨hrep, fun r => ?_, fun u => ?_, ?_⟩
  · by_cases hr : r = p
    · subst hr
      obtain ⟨xs0, hq0, hxs0⟩ := h.queue r
      rw [hq] at hq0
      cases hq0
      refine ⟨ys, Function.update_self .., fun u => ?_⟩
      rw [hys, hxs0, hreadyIff]
      simp
    · obtain ⟨xs0, hq0, hxs0⟩ := h.queue r
      refine ⟨xs0, by rw [Function.update_of_ne (by simpa using hr)]; exact hq0, fun u => ?_⟩
      rw [hxs0, hreadyIff]
      simp [hr]
  · by_cases hu : u = t
    · subst hu
      exact ⟨by rw [hrd, hcp], by rw [hpm, hcp]⟩
    · rw [hother u hu]
      exact h.fields u
  · rw [hprio]
    refine (h.marks.addto p).congr fun r => ?_
    simp only [hreadyIff]
    constructor
    · rintro (rfl | ⟨u, hu⟩)
      · exact ⟨t, .inl ⟨rfl, rfl⟩⟩
      · exact ⟨u, .inr hu⟩
    · rintro ⟨u, ⟨-, rfl⟩ | hu⟩
      · exact .inl rfl
      · exact .inr ⟨u, hu⟩

theorem SchedInv.append (h : SchedInv k Qs) (ht : ¬ k.Ready t) (hfree : Free Qs t) (hf : (k.thr t).SamePrio (f (k.thr t)))
    (hs : (f (k.thr t)).curState = stReady) : ∃ Qs', SchedInv (lwpReadyAppend (k.setThr t f) t) Qs' ∧ SameWait Qs Qs' := by
  obtain ⟨xs, hq, -⟩ := h.queue (k.thr t).curPrio
  have hmem : ∀ u, u ∈ xs ++ [t] ↔ u = t ∨ u ∈ xs := by simp [or_comm]
  refine ⟨_, h.insert ht hq ?_ hmem ?_ (fun u hu => ?_) ?_ ?_ ?_ ?_, SameWait.update_ready _ _ _⟩
  · simp only [lwpReadyAppend, setThr_thr_self, setThr_mem, hf.2.1, (h.fields t).1]
    exact lwpQueueAppendI_rep h.rep hq hfree
  · simp only [lwpReadyAppend, setThr_thr_self, setThr_prio, hf.2.2, (h.fields t).2]
  · rw [lwpReadyAppend_thr, setThr_thr_ne _ _ _ hu]
  · rw [lwpReadyAppend_thr, setThr_thr_self, hs]
  · rw [lwpReadyAppend_thr, setThr_thr_self, hf.1]
  · rw [lwpReadyAppend_thr, setThr_thr_self, hf.2.1, (h.fields t).1]
  · rw [lwpReadyAppend_thr, setThr_thr_self, hf.2.2, (h.fields t).2]

/-- A thread that is not ready, before and after, may change its state and priority freely. -/
theorem SchedInv.setThr (h : SchedInv k Qs) (ht : ¬ k.Ready t) (hs : (f (k.thr t)).curState ≠ stReady)
    (hrd : (f (k.thr t)).ready = (f (k.thr t)).curPrio) (hpm : (f (k.thr t)).priomap = lwpPriomapInit (f (k.thr t)).curPrio) :
    SchedInv (k.setThr t f) Qs := by
  have hreadyIff : ∀ u r, ((k.setThr t f).Ready u ∧ ((k.setThr t f).thr u).curPrio = r) ↔
      (k.Ready u ∧ (k.thr u).curPrio = r) := by
    intro u r
    by_cases hu : u = t
    · subst hu
      refine ⟨fun h => absurd ?_ hs, fun h => absurd h.1 ht⟩
      rw [← setThr_thr_self k u f]
      exact h.1
    · simp [Kernel.Ready, setThr_thr_ne _ _ _ hu]
  refine ⟨h.rep, fun r => ?_, fun u => ?_, ?_⟩
  · obtain ⟨xs, hq, hxs⟩ := h.queue r
    exact ⟨xs, hq, fun u => by rw [hxs, hreadyIff]⟩
  · by_cases hu : u = t
    · subst hu; rw [setThr_thr_self]; exact ⟨hrd, hpm⟩
    · rw [setThr_thr_ne _ _ _ hu]; exact h.fields u
  · exact h.marks.congr fun r => by simp only [hreadyIff]

theorem SchedInv.setThr_samePrio (h : SchedInv k Qs) (t : T) (hf : (k.thr t).SamePrio (f (k.thr t)))
    (hs : (f (k.thr t)).curState = (k.thr t).curState) : SchedInv (k.setThr t f) Qs := by
  have hreadyIff : ∀ u r, ((k.setThr t f).Ready u ∧ ((k.setThr t f).thr u).curPrio = r) ↔
      (k.Ready u ∧ (k.thr u).curPrio = r) := by
    intro u r
    by_cases hu : u = t
    · subst hu; simp [Kernel.Ready, hs, hf.1]
    · simp [Kernel.Ready, setThr_thr_ne _ _ _ hu]
  refine ⟨h.rep, fun r => ?_, fun u => ?_, ?_⟩
  · obtain ⟨xs, hq, hxs⟩ := h.queue r
    exact ⟨xs, hq, fun u => by rw [hxs, hreadyIff]⟩
  · by_cases hu : u = t
    · subst hu; rw [setThr_thr_self, hf.1, hf.2.1, hf.2.2]; exact h.fields u
    · rw [setThr_thr_ne _ _ _ hu]; exact h.fields u
  · exact h.marks.congr fun r => by simp only [hreadyIff]

/-! ## The heir -/

/-- **Recomputing the heir** finds a ready thread of the best priority, when there is one. -/
theorem HeirOk.calcheir (h : SchedInv k Qs) (ht : k.Ready t) : HeirOk (lwpThreadCalcheir k) := by
  obtain ⟨p, hp, ⟨u, hu, hup⟩, hmin⟩ := h.marks.highest ⟨t, ht, rfl⟩
  obtain ⟨xs, hq, hxs⟩ := h.queue p
  have hat : readyAt (lwpPriomapHighest k.prio) = (.ready p : QId T W) := by
    rw [readyAt, hp]
    exact congrArg _ (Fin.ext (Nat.mod_eq_of_lt p.isLt))
  cases xs with
  | nil => exact absurd ((hxs u).2 ⟨hu, hup⟩) (by simp)
  | cons x xs =>
    obtain ⟨hx, hxp⟩ := (hxs x).1 (by simp)
    refine ⟨x, ?_, hx, fun v hv => ?_⟩
    · rw [lwpThreadCalcheir, hat]
      exact h.rep.next_head hq
    · show (k.thr x).curPrio ≤ (k.thr v).curPrio
      rw [hxp]
      exact hmin _ ⟨v, hv, rfl⟩

/-- A ready queue's first thread may replace an heir of the same priority. -/
theorem HeirOk.first (h : SchedInv k Qs) (hh : HeirOk k) (hr : heirReadyIs k p = true) :
    HeirOk { k with heir := k.mem (.first (.ready p)) } := by
  obtain ⟨x, h1, h2, h3⟩ := hh
  simp only [heirReadyIs, h1, decide_eq_true_eq] at hr
  rw [(h.fields x).1] at hr
  obtain ⟨xs, hq, hxs⟩ := h.queue p
  cases xs with
  | nil => exact absurd ((hxs x).2 ⟨h2, hr⟩) (by simp)
  | cons y ys =>
    obtain ⟨hy, hyp⟩ := (hxs y).1 (by simp)
    refine ⟨y, h.rep.next_head hq, hy, fun v hv => ?_⟩
    show (k.thr y).curPrio ≤ (k.thr v).curPrio
    rw [hyp, ← hr]
    exact h3 v hv

/-- A thread that becomes ready keeps the heir right: it takes over only when it is strictly more urgent. -/
theorem HeirOk.preempt (hh : HeirOk k₀) (ht : k.Ready t) (hheir : k.heir = k₀.heir) (hother : ∀ u, u ≠ t → k.thr u = k₀.thr u)
    (hnr : ¬ k₀.Ready t) : HeirOk (lwpThreadPreempt k t) := by
  obtain ⟨x, h1, h2, h3⟩ := hh
  have hxt : x ≠ t := fun e => hnr (e ▸ h2)
  have hready : ∀ u, k.Ready u → u = t ∨ k₀.Ready u := by
    intro u hu
    by_cases hut : u = t
    · exact .inl hut
    · exact .inr (by rw [Kernel.Ready, ← hother u hut]; exact hu)
  have hxr : k.Ready x := by rw [Kernel.Ready, hother x hxt]; exact h2
  by_cases hb : heirBelow k (k.thr t).curPrio = true
  · have hlt : (k.thr t).curPrio < (k.thr x).curPrio := by simpa [heirBelow, hheir, h1] using hb
    have hnew : (lwpThreadPreempt k t).heir = .node t := by
      dsimp only [lwpThreadPreempt]; rw [if_pos hb]; split <;> rfl
    refine ⟨t, hnew, by rw [Kernel.Ready, lwpThreadPreempt_thr]; exact ht, fun u hu => ?_⟩
    rw [Kernel.Ready, lwpThreadPreempt_thr] at hu
    rw [lwpThreadPreempt_thr]
    by_cases hut : u = t
    · rw [hut]
    · have hle := h3 u ((hready u hu).resolve_left hut)
      rw [← hother x hxt, ← hother u hut] at hle
      exact (hlt.trans_le hle).le
  · have hle : (k.thr x).curPrio ≤ (k.thr t).curPrio := by simpa [heirBelow, hheir, h1] using hb
    have hnew : (lwpThreadPreempt k t).heir = .node x := by
      dsimp only [lwpThreadPreempt]; rw [if_neg hb, hheir, h1]
    refine ⟨x, hnew, by rw [Kernel.Ready, lwpThreadPreempt_thr]; exact hxr, fun u hu => ?_⟩
    rw [Kernel.Ready, lwpThreadPreempt_thr] at hu
    rw [lwpThreadPreempt_thr]
    by_cases hut : u = t
    · rw [hut]; exact hle
    · have := h3 u ((hready u hu).resolve_left hut)
      rwa [← hother x hxt, ← hother u hut] at this

theorem HeirOk.leave (hh : HeirOk k₀) (hheir : k.heir = k₀.heir) (hne : k₀.heir ≠ .node t)
    (hother : ∀ u, u ≠ t → k.thr u = k₀.thr u) (hnr : ¬ k.Ready t) : HeirOk k := by
  obtain ⟨x, h1, h2, h3⟩ := hh
  have hxt : x ≠ t := fun e => hne (by rw [h1, e])
  refine ⟨x, hheir.trans h1, by rw [Kernel.Ready, hother x hxt]; exact h2, fun u hu => ?_⟩
  have hut : u ≠ t := fun e => hnr (e ▸ hu)
  rw [hother x hxt, hother u hut]
  apply h3
  rw [Kernel.Ready, ← hother u hut]
  exact hu

theorem HeirOk.switchWant (hh : HeirOk k) (b : Bool) : HeirOk (if b then { k with switchWant := true } else k) := by
  cases b with
  | true => exact hh.congr rfl rfl
  | false => exact hh

theorem SchedInv.switchWant (h : SchedInv k Qs) (b : Bool) : SchedInv (if b then { k with switchWant := true } else k) Qs := by
  cases b with
  | true => exact h.congr rfl rfl rfl
  | false => exact h

/-! ## The operations -/

section Ops
variable (k : Kernel T W) (t : T)

@[simp] theorem lwpReadyBlock_thr : (lwpReadyBlock k t).thr = k.thr := by
  dsimp only [lwpReadyBlock]; split <;> split <;> simp [lwpThreadCalcheir]
@[simp] theorem lwpReadyBlock_executing : (lwpReadyBlock k t).executing = k.executing := by
  dsimp only [lwpReadyBlock]; split <;> split <;> simp [lwpThreadCalcheir]
@[simp] theorem lwpReadyBlock_tq : (lwpReadyBlock k t).tq = k.tq := by
  dsimp only [lwpReadyBlock]; split <;> split <;> simp [lwpThreadCalcheir]
theorem lwpReadyBlock_mem : (lwpReadyBlock k t).mem = (lwpReadyExtract k t).mem := by
  dsimp only [lwpReadyBlock]; split <;> split <;> rfl
theorem lwpReadyBlock_prio : (lwpReadyBlock k t).prio = (lwpReadyExtract k t).prio := by
  dsimp only [lwpReadyBlock]; split <;> split <;> rfl

end Ops

theorem lwpReadyBlock_sched (h : SchedInv k Qs) (ht : k.Ready t) (hf : (k.thr t).SamePrio (f (k.thr t)))
    (hs : (f (k.thr t)).curState ≠ stReady) : ∃ Qs', SchedInv (lwpReadyBlock (k.setThr t f) t) Qs' ∧ Free Qs' t ∧ SameWait Qs Qs' := by
  obtain ⟨Qs', h', hfree, hw⟩ := h.extract ht hf hs
  exact ⟨Qs', h'.congr (lwpReadyBlock_mem _ _) (by simp) (lwpReadyBlock_prio _ _), hfree, hw⟩

theorem lwpReadyBlock_heir (h : SchedInv k Qs) (hh : HeirOk k) (ht : k.Ready t) (hf : (k.thr t).SamePrio (f (k.thr t)))
    (hs : (f (k.thr t)).curState ≠ stReady) {u : T} (hu : k.Ready u) (hut : u ≠ t) : HeirOk (lwpReadyBlock (k.setThr t f) t) := by
  obtain ⟨Qs', h', -, -⟩ := h.extract ht hf hs
  have hu' : (lwpReadyExtract (k.setThr t f) t).Ready u := by
    rw [Kernel.Ready, lwpReadyExtract_thr, setThr_thr_ne _ _ _ hut]; exact hu
  have hx : HeirOk (if lwpThreadIsheir (lwpReadyExtract (k.setThr t f) t) t then
      lwpThreadCalcheir (lwpReadyExtract (k.setThr t f) t) else lwpReadyExtract (k.setThr t f) t) := by
    split
    · exact HeirOk.calcheir h' hu'
    · rename_i hne
      simp only [lwpThreadIsheir, lwpReadyExtract_heir, setThr_heir, decide_eq_true_eq] at hne
      refine hh.leave (by simp) (fun e => hne e.symm) (fun v hv => ?_) ?_
      · rw [lwpReadyExtract_thr, setThr_thr_ne _ _ _ hv]
      · rw [Kernel.Ready, lwpReadyExtract_thr, setThr_thr_self]; exact hs
  exact hx.switchWant _

theorem lwpThreadSetstate_eq (ht : k.Ready t) (s : BitVec 32) :
    lwpThreadSetstate k t s = lwpReadyBlock (k.setThr t ({ · with curState := s })) t := by
  unfold lwpThreadSetstate
  rw [Kernel.Ready] at ht
  simp [lwpStateready, ht, Kernel.setState]

theorem lwpReadyUnblock_sched (h : SchedInv k Qs) (ht : ¬ k.Ready t) (hfree : Free Qs t) (hf : (k.thr t).SamePrio (f (k.thr t)))
    (hs : (f (k.thr t)).curState = stReady) :
    ∃ Qs', SchedInv (lwpThreadPreempt (lwpReadyAppend (k.setThr t f) t) t) Qs' ∧ SameWait Qs Qs' := by
  obtain ⟨Qs', h', hw⟩ := h.append ht hfree hf hs
  exact ⟨Qs', h'.congr (by simp) (by simp) (by simp), hw⟩

theorem lwpReadyUnblock_heir (hh : HeirOk k) (ht : ¬ k.Ready t) (hs : (f (k.thr t)).curState = stReady) :
    HeirOk (lwpThreadPreempt (lwpReadyAppend (k.setThr t f) t) t) := by
  refine hh.preempt ?_ rfl (fun u hu => ?_) ht
  · rw [Kernel.Ready, lwpReadyAppend_thr, setThr_thr_self]; exact hs
  · rw [lwpReadyAppend_thr, setThr_thr_ne _ _ _ hu]

/-! ### `__lwp_thread_clearstate` -/

theorem not_ready_of_statesset (h : lwpStatesset (k.thr t).curState s = true) : ¬ k.Ready t := by
  intro hr
  rw [Kernel.Ready] at hr
  simp [lwpStatesset, hr, stReady] at h

theorem lwpThreadClearstate_thr (k : Kernel T W) (t : T) (s : BitVec 32) :
    (lwpThreadClearstate k t s).thr = (k.setState t (lwpClearstate (k.thr t).curState s)).thr := by
  dsimp only [lwpThreadClearstate]
  split
  · split <;> simp
  · rename_i hn
    have hz : (k.thr t).curState &&& s = 0#32 := by
      by_contra hne
      exact hn (decide_eq_true hne)
    have he : lwpClearstate (k.thr t).curState s = (k.thr t).curState := by
      unfold lwpClearstate
      ext i hi
      have := congrArg (fun x => x.getLsbD i) hz
      simp only [BitVec.getLsbD_and, BitVec.getLsbD_zero] at this
      simp only [BitVec.getElem_and, BitVec.getElem_not, BitVec.getLsbD_eq_getElem hi] at this ⊢
      revert this
      cases (k.thr t).curState[i] <;> cases s[i] <;> simp
    rw [he]
    simp [Kernel.setState, Kernel.setThr]

theorem lwpThreadClearstate_sched (h : SchedInv k Qs) (hfree : ¬ k.Ready t → (lwpThreadClearstate k t s).Ready t → Free Qs t) :
    ∃ Qs', SchedInv (lwpThreadClearstate k t s) Qs' ∧ SameWait Qs Qs' := by
  have hthr := lwpThreadClearstate_thr k t s
  dsimp only [lwpThreadClearstate]
  split
  · rename_i hset
    have hnr := not_ready_of_statesset hset
    split
    · rename_i hr
      have hr' : lwpClearstate (k.thr t).curState s = stReady := by simpa [lwpStateready] using hr
      refine lwpReadyUnblock_sched h hnr (hfree hnr ?_) ⟨rfl, rfl, rfl⟩ hr'
      rw [Kernel.Ready, hthr, Kernel.setState, setThr_thr_self]
      exact hr'
    · rename_i hr
      have hr' : lwpClearstate (k.thr t).curState s ≠ stReady := fun e => hr (by simp [lwpStateready, e])
      exact ⟨Qs, h.setThr hnr hr' (h.fields t).1 (h.fields t).2, SameWait.refl _⟩
  · exact ⟨Qs, h, SameWait.refl _⟩

theorem lwpThreadClearstate_heir (hh : HeirOk k) (t : T) (s : BitVec 32) : HeirOk (lwpThreadClearstate k t s) := by
  dsimp only [lwpThreadClearstate]
  split
  · rename_i hset
    have hnr := not_ready_of_statesset hset
    split
    · rename_i hr
      exact lwpReadyUnblock_heir hh hnr (by simpa [lwpStateready] using hr)
    · rename_i hr
      refine hh.leave rfl (fun e => ?_) (fun u hu => setThr_thr_ne _ _ _ hu) ?_
      · obtain ⟨x, h1, h2, -⟩ := hh
        rw [h1] at e
        cases e
        exact hnr h2
      · rw [Kernel.Ready, Kernel.setState, setThr_thr_self]
        exact fun e => hr (by simpa [lwpStateready] using e)
  · exact hh

/-! ### `__lwp_thread_changepriority` -/

theorem SchedInv.free_of_waitless (h : SchedInv k Qs) (ht : ¬ k.Ready t) (hw : ∀ w i xs, Qs (.wait w i) = some xs → t ∉ xs)
    (hb : ∀ u xs, Qs (.block2n u) = some xs → t ∉ xs) : Free Qs t := by
  intro q xs hq
  cases q with
  | ready p =>
    obtain ⟨ys, hqy, hys⟩ := h.queue p
    rw [hq] at hqy
    cases hqy
    exact fun hm => ht ((hys t).1 hm).1
  | wait w i => exact hw w i xs hq
  | block2n u => exact hb u xs hq

/-- The part of a state that `__lwp_thread_changepriority` leaves: everything but the transient bit. -/
theorem lwpClearstate_transient (s : BitVec 32) : lwpClearstate (lwpSetstate s stTransient) stTransient = lwpClearstate s stTransient := by
  unfold lwpClearstate lwpSetstate
  ext i hi
  simp only [BitVec.getElem_and, BitVec.getElem_or, BitVec.getElem_not]
  cases s[i] <;> cases stTransient[i] <;> rfl

theorem lwpSetstate_transient_ne (s : BitVec 32) : lwpSetstate s stTransient ≠ stReady := by
  intro h
  have := congrArg (fun x => x.getLsbD 2) h
  simp [lwpSetstate, stTransient, stReady] at this

theorem lwpThreadSettransient_thr (k : Kernel T W) (t : T) : (lwpThreadSettransient k t).thr =
    (k.setState t (lwpSetstate (k.thr t).curState stTransient)).thr := by
  dsimp only [lwpThreadSettransient]; split <;> simp

theorem lwpThreadSettransient_heir (k : Kernel T W) (t : T) : (lwpThreadSettransient k t).heir = k.heir := by
  dsimp only [lwpThreadSettransient]; split <;> simp [Kernel.setState]

theorem lwpThreadSettransient_executing (k : Kernel T W) (t : T) : (lwpThreadSettransient k t).executing = k.executing := by
  dsimp only [lwpThreadSettransient]; split <;> simp [Kernel.setState]

theorem lwpThreadSettransient_tq (k : Kernel T W) (t : T) : (lwpThreadSettransient k t).tq = k.tq := by
  dsimp only [lwpThreadSettransient]; split <;> simp [Kernel.setState]

theorem lwpThreadSettransient_sched (h : SchedInv k Qs) (t : T) :
    ∃ Qs', SchedInv (lwpThreadSettransient k t) Qs' ∧ SameWait Qs Qs' ∧ (k.Ready t → Free Qs' t) ∧
      (¬ k.Ready t → Qs' = Qs) := by
  by_cases ht : k.Ready t
  · obtain ⟨Qs', h', hfree, hw⟩ :=
      h.extract ht (f := ({ · with curState := lwpSetstate (k.thr t).curState stTransient })) ⟨rfl, rfl, rfl⟩
        (lwpSetstate_transient_ne _)
    have he : lwpThreadSettransient k t =
        lwpReadyExtract (k.setThr t ({ · with curState := lwpSetstate (k.thr t).curState stTransient })) t := by
      dsimp only [lwpThreadSettransient]
      rw [Kernel.Ready] at ht
      rw [if_pos (by simp [lwpStateready, ht])]
      rfl
    exact ⟨Qs', he ▸ h', hw, fun _ => hfree, fun hn => absurd ht hn⟩
  · have he : lwpThreadSettransient k t =
        k.setThr t ({ · with curState := lwpSetstate (k.thr t).curState stTransient }) := by
      dsimp only [lwpThreadSettransient]
      rw [if_neg (by simpa [lwpStateready, Kernel.Ready] using ht)]
      rfl
    refine ⟨Qs, he ▸ h.setThr ht (lwpSetstate_transient_ne _) (h.fields t).1 (h.fields t).2, SameWait.refl _,
      fun hr => absurd hr ht, fun _ => rfl⟩

/-- The control block `__lwp_thread_changepriority` leaves, before the thread is linked again. -/
def Lwp.withPriority (l : Lwp W) (prio : Fin 256) : Lwp W :=
  let l := { l with curState := lwpClearstate l.curState stTransient }
  if l.curPrio ≠ prio then { l with curPrio := prio, ready := prio, priomap := lwpPriomapInit prio } else l

theorem Lwp.withPriority_fields {l : Lwp W} (hr : l.ready = l.curPrio) (hm : l.priomap = lwpPriomapInit l.curPrio)
    (prio : Fin 256) : (l.withPriority prio).curPrio = prio ∧ (l.withPriority prio).ready = prio ∧
      (l.withPriority prio).priomap = lwpPriomapInit prio := by
  unfold Lwp.withPriority
  by_cases hp : l.curPrio = prio
  · subst hp; simp [hr, hm]
  · simp [hp]

@[simp] theorem Lwp.withPriority_curState (l : Lwp W) (prio : Fin 256) :
    (l.withPriority prio).curState = lwpClearstate l.curState stTransient := by
  unfold Lwp.withPriority; dsimp only; split <;> rfl
@[simp] theorem Lwp.withPriority_wait (l : Lwp W) (prio : Fin 256) : (l.withPriority prio).wait = l.wait := by
  unfold Lwp.withPriority; dsimp only; split <;> rfl
@[simp] theorem Lwp.withPriority_timer (l : Lwp W) (prio : Fin 256) : (l.withPriority prio).timer = l.timer := by
  unfold Lwp.withPriority; dsimp only; split <;> rfl
@[simp] theorem Lwp.withPriority_resCnt (l : Lwp W) (prio : Fin 256) : (l.withPriority prio).resCnt = l.resCnt := by
  unfold Lwp.withPriority; dsimp only; split <;> rfl
@[simp] theorem Lwp.withPriority_realPrio (l : Lwp W) (prio : Fin 256) : (l.withPriority prio).realPrio = l.realPrio := by
  unfold Lwp.withPriority; dsimp only; split <;> rfl

@[simp] theorem Lwp.withPriority_curPrio (l : Lwp W) (prio : Fin 256) : (l.withPriority prio).curPrio = prio := by
  unfold Lwp.withPriority
  by_cases hp : l.curPrio = prio <;> simp [hp]

/-- The kernel with the new priority and the transient bit cleared, before the thread is linked again. -/
def changedPrio (k : Kernel T W) (t : T) (prio : Fin 256) : Kernel T W :=
  let k := lwpThreadSettransient k t
  let k := if (k.thr t).curPrio ≠ prio then lwpThreadSetpriority k t prio else k
  k.setState t (lwpClearstate (k.thr t).curState stTransient)

theorem changedPrio_eq (k : Kernel T W) (t : T) (prio : Fin 256) :
    changedPrio k t prio = (lwpThreadSettransient k t).setThr t (·.withPriority prio) := by
  dsimp only [changedPrio]
  split
  · rename_i hp
    have hp' : ¬ ((lwpThreadSettransient k t).thr t).curPrio = prio := hp
    simp only [lwpThreadSetpriority, Kernel.setState, Kernel.setThr, Function.update_self, Function.update_idem,
      Lwp.withPriority, if_pos hp]
  · rename_i hp
    simp only [Kernel.setState, Kernel.setThr, Lwp.withPriority, if_neg hp]

theorem changedPrio_thr (k : Kernel T W) (t : T) (prio : Fin 256) :
    (changedPrio k t prio).thr = (k.setThr t (·.withPriority prio)).thr := by
  rw [changedPrio_eq]
  funext u
  by_cases hu : u = t
  · subst hu
    rw [setThr_thr_self, setThr_thr_self, lwpThreadSettransient_thr, Kernel.setState, setThr_thr_self]
    simp only [Lwp.withPriority, lwpClearstate_transient]
  · rw [setThr_thr_ne _ _ _ hu, setThr_thr_ne _ _ _ hu, lwpThreadSettransient_thr, Kernel.setState,
      setThr_thr_ne _ _ _ hu]

/-- Linking a thread of a new priority again, at either end of its ready queue. -/
def relink (k : Kernel T W) (t : T) (prependit : Bool) : Kernel T W :=
  let k := { k with prio := lwpPriomapAddto k.prio (k.thr t).priomap }
  if prependit then { k with mem := lwpQueuePrependI k.mem (.ready (k.thr t).ready) t }
  else { k with mem := lwpQueueAppendI k.mem (.ready (k.thr t).ready) t }

@[simp] theorem relink_thr (k : Kernel T W) (t : T) (b : Bool) : (relink k t b).thr = k.thr := by cases b <;> rfl
@[simp] theorem relink_executing (k : Kernel T W) (t : T) (b : Bool) : (relink k t b).executing = k.executing := by
  cases b <;> rfl
@[simp] theorem relink_tq (k : Kernel T W) (t : T) (b : Bool) : (relink k t b).tq = k.tq := by cases b <;> rfl

theorem lwpThreadChangepriority_eq (k : Kernel T W) (t : T) (prio : Fin 256) (b : Bool) :
    lwpThreadChangepriority k t prio b =
      let k := changedPrio k t prio
      if !lwpStateready (k.thr t).curState then k
      else
        let k := lwpThreadCalcheir (relink k t b)
        if !lwpThreadIsheir k k.executing && (k.thr k.executing).isPreemptible then { k with switchWant := true }
        else k := rfl

@[simp] theorem lwpThreadChangepriority_thr (k : Kernel T W) (t : T) (prio : Fin 256) (b : Bool) :
    (lwpThreadChangepriority k t prio b).thr = (k.setThr t (·.withPriority prio)).thr := by
  rw [lwpThreadChangepriority_eq]
  dsimp only
  rw [apply_ite Kernel.thr, apply_ite Kernel.thr]
  simp [lwpThreadCalcheir, changedPrio_thr]

@[simp] theorem lwpThreadChangepriority_executing (k : Kernel T W) (t : T) (prio : Fin 256) (b : Bool) :
    (lwpThreadChangepriority k t prio b).executing = k.executing := by
  rw [lwpThreadChangepriority_eq]
  dsimp only
  rw [apply_ite Kernel.executing, apply_ite Kernel.executing]
  simp [lwpThreadCalcheir, changedPrio_eq, lwpThreadSettransient_executing]

@[simp] theorem lwpThreadChangepriority_tq (k : Kernel T W) (t : T) (prio : Fin 256) (b : Bool) :
    (lwpThreadChangepriority k t prio b).tq = k.tq := by
  rw [lwpThreadChangepriority_eq]
  dsimp only
  rw [apply_ite Kernel.tq, apply_ite Kernel.tq]
  simp [lwpThreadCalcheir, changedPrio_eq, lwpThreadSettransient_tq]

/-- Putting a thread that was taken off back on the ready queue of its new priority. -/
theorem SchedInv.relink {k₁ : Kernel T W} (h : SchedInv k₁ Qs) (ht : ¬ k₁.Ready t) (hfree : Free Qs t) {prio : Fin 256}
    (hs : ((k₁.thr t).withPriority prio).curState = stReady) (b : Bool) :
    ∃ Qs', SchedInv (relink (k₁.setThr t (·.withPriority prio)) t b) Qs' ∧ SameWait Qs Qs' := by
  obtain ⟨hp1, hp2, hp3⟩ := Lwp.withPriority_fields (h.fields t).1 (h.fields t).2 prio
  obtain ⟨xs, hq, -⟩ := h.queue prio
  have hother : ∀ u, u ≠ t → ((k₁.setThr t (·.withPriority prio)).thr u) = k₁.thr u :=
    fun u hu => setThr_thr_ne _ _ _ hu
  cases b with
  | true =>
    have hrep : Rep (Libogc.relink (k₁.setThr t (·.withPriority prio)) t true).mem
        (Function.update Qs (.ready prio) (some (t :: xs))) := by
      simp only [Libogc.relink, if_true, setThr_thr_self, setThr_mem, hp2]
      exact lwpQueuePrependI_rep h.rep hq hfree
    refine ⟨_, h.insert ht hq hrep (by simp) ?_ hother ?_ ?_ ?_ ?_, SameWait.update_ready _ _ _⟩ <;>
      simp [Libogc.relink, hp2, hp3]
    simpa using hs
  | false =>
    have hrep : Rep (Libogc.relink (k₁.setThr t (·.withPriority prio)) t false).mem
        (Function.update Qs (.ready prio) (some (xs ++ [t]))) := by
      simp only [Libogc.relink, setThr_thr_self, setThr_mem, hp2]
      exact lwpQueueAppendI_rep h.rep hq hfree
    refine ⟨_, h.insert ht hq hrep (by simp [or_comm]) ?_ hother ?_ ?_ ?_ ?_, SameWait.update_ready _ _ _⟩ <;>
      simp [Libogc.relink, hp2, hp3]
    simpa using hs

theorem lwpThreadSettransient_not_ready (k : Kernel T W) (t : T) : ¬ (lwpThreadSettransient k t).Ready t := by
  rw [Kernel.Ready, lwpThreadSettransient_thr, Kernel.setState, setThr_thr_self]
  exact lwpSetstate_transient_ne _

/-- **A change of priority** moves a ready thread to its new queue, and the heir is looked for again. -/
theorem lwpThreadChangepriority_sched (h : SchedInv k Qs)
    (hfree : ¬ k.Ready t → lwpClearstate (k.thr t).curState stTransient = stReady → Free Qs t) (prio : Fin 256) (b : Bool) :
    ∃ Qs', SchedInv (lwpThreadChangepriority k t prio b) Qs' ∧ SameWait Qs Qs' ∧
      (HeirOk k → HeirOk (lwpThreadChangepriority k t prio b)) := by
  obtain ⟨Qs₁, h₁, hw, hf₁, hf₂⟩ := lwpThreadSettransient_sched h t
  have hnr := lwpThreadSettransient_not_ready k t
  obtain ⟨hp1, hp2, hp3⟩ := Lwp.withPriority_fields (h₁.fields t).1 (h₁.fields t).2 prio
  have hst : (((lwpThreadSettransient k t).thr t).withPriority prio).curState =
      lwpClearstate (k.thr t).curState stTransient := by
    rw [Lwp.withPriority_curState, lwpThreadSettransient_thr, Kernel.setState, setThr_thr_self, lwpClearstate_transient]
  rw [lwpThreadChangepriority_eq, changedPrio_eq]
  dsimp only
  rw [setThr_thr_self, hst]
  by_cases hr : lwpClearstate (k.thr t).curState stTransient = stReady
  · rw [if_neg (by simp [lwpStateready, hr])]
    have hfree₁ : Free Qs₁ t := by
      by_cases ht : k.Ready t
      · exact hf₁ ht
      · rw [hf₂ ht]; exact hfree ht hr
    obtain ⟨Qs₂, h₂, hw₂⟩ := h₁.relink hnr hfree₁ (hst.trans hr) b
    have hrt : (relink ((lwpThreadSettransient k t).setThr t (·.withPriority prio)) t b).Ready t := by
      rw [Kernel.Ready, relink_thr, setThr_thr_self, hst]; exact hr
    have hheir := HeirOk.calcheir h₂ hrt
    refine ⟨Qs₂, ?_, hw.trans hw₂, fun _ => hheir.switchWant _⟩
    split
    · exact h₂.congr rfl rfl rfl
    · exact h₂.congr rfl rfl rfl
  · rw [if_pos (by simpa [lwpStateready] using hr)]
    refine ⟨Qs₁, h₁.setThr hnr (hst.trans_ne hr) (hp2.trans hp1.symm) (by rw [hp3, hp1]), hw, fun hh => ?_⟩
    have hkt : ¬ k.Ready t := by
      intro ht
      rw [Kernel.Ready] at ht
      exact hr (by rw [ht]; rfl)
    refine hh.leave (t := t) ?_ ?_ (fun u hu => ?_) ?_
    · rw [setThr_heir, lwpThreadSettransient_heir]
    · obtain ⟨x, h1, h2, -⟩ := hh
      rw [h1]
      rintro ⟨⟩
      exact hkt h2
    · rw [setThr_thr_ne _ _ _ hu, lwpThreadSettransient_thr, Kernel.setState, setThr_thr_ne _ _ _ hu]
    · rw [Kernel.Ready, setThr_thr_self, hst]; exact hr

/-! ### Rotating a ready queue -/

theorem SchedInv.reorder (h : SchedInv k Qs) (hq : Qs (.ready p) = some xs) {m : Mem (QId T W) T}
    (hrep : Rep m (Function.update Qs (.ready p) (some ys))) (hys : ∀ u, u ∈ ys ↔ u ∈ xs) :
    SchedInv { k with mem := m } (Function.update Qs (.ready p) (some ys)) := by
  refine ⟨hrep, fun r => ?_, h.fields, h.marks⟩
  by_cases hr : r = p
  · subst hr
    obtain ⟨zs, hz, hzs⟩ := h.queue r
    rw [hq] at hz
    cases hz
    exact ⟨ys, Function.update_self .., fun u => (hys u).trans (hzs u)⟩
  · obtain ⟨zs, hz, hzs⟩ := h.queue r
    exact ⟨zs, by rw [Function.update_of_ne (by simpa using hr)]; exact hz, hzs⟩

theorem SchedInv.to_back (h : SchedInv k Qs) {l₁ l₂ : List T} (hq : Qs (.ready p) = some (l₁ ++ t :: l₂)) :
    ∃ Qs', SchedInv { k with mem := lwpQueueAppendI (lwpQueueExtractI k.mem t) (.ready p) t } Qs' ∧ SameWait Qs Qs' := by
  have hx := lwpQueueExtractI_rep h.rep hq
  have htl : t ∉ l₁ ++ l₂ := (List.nodup_cons.1 (List.nodup_middle.1 (h.rep.nodup hq))).1
  have hfree := h.rep.free_of_removed hq htl
  have ha := lwpQueueAppendI_rep hx (Function.update_self ..) hfree
  rw [Function.update_idem] at ha
  exact ⟨_, h.reorder hq ha (by simp; tauto), SameWait.update_ready _ _ _⟩

theorem lwpThreadYield_sched (h : SchedInv k Qs) (hx : k.Ready k.executing) :
    ∃ Qs', SchedInv (lwpThreadYield k) Qs' ∧ SameWait Qs Qs' ∧ (HeirOk k → HeirOk (lwpThreadYield k)) := by
  obtain ⟨l₁, l₂, hq⟩ := h.mem_ready hx
  rw [← (h.fields k.executing).1] at hq
  obtain ⟨Qs', h', hw⟩ := h.to_back hq
  dsimp only [lwpThreadYield]
  split
  · refine ⟨Qs', ?_, hw, fun hh => ?_⟩
    · split
      · exact h'.congr rfl rfl rfl
      · exact h'.congr rfl rfl rfl
    · have hh' : ∀ m, HeirOk { k with mem := m } := fun _ => hh.congr rfl rfl
      split
      · rename_i hi
        have hi' : k.heir = .node k.executing := by simpa [lwpThreadIsheir, eq_comm] using hi
        exact (HeirOk.first h' (hh' _) (by simp [heirReadyIs, hi'])).congr rfl rfl
      · exact (hh' k.mem).congr rfl rfl
  · refine ⟨Qs, ?_, SameWait.refl _, fun hh => hh.switchWant _⟩
    split
    · exact h.congr rfl rfl rfl
    · exact h

theorem lwpThreadResettimeslice_sched (h : SchedInv k Qs) (hx : k.Ready k.executing) :
    ∃ Qs', SchedInv (lwpThreadResettimeslice k) Qs' ∧ SameWait Qs Qs' ∧ (HeirOk k → HeirOk (lwpThreadResettimeslice k)) := by
  by_cases h1 : lwpQueueOnenode k.mem (.ready (k.thr k.executing).ready) = true
  · exact ⟨Qs, by rw [lwpThreadResettimeslice, if_pos h1]; exact h, SameWait.refl _,
      fun hh => by rw [lwpThreadResettimeslice, if_pos h1]; exact hh⟩
  · -- with company on its queue, the slice ends exactly as a yield does
    have he : lwpThreadResettimeslice k = lwpThreadYield k := by
      simp only [lwpThreadResettimeslice, lwpThreadYield, h1]
      rfl
    rw [he]
    exact lwpThreadYield_sched h hx

theorem SchedInv.readyRotate (h : SchedInv k Qs) (prio : Fin 256) :
    ∃ Qs', SchedInv { k with mem := readyRotate k.mem prio } Qs' ∧ SameWait Qs Qs' := by
  obtain ⟨xs, hq, hxs⟩ := h.queue prio
  unfold Libogc.readyRotate
  split
  · rename_i hc
    cases xs with
    | nil =>
      rw [(lwpQueueIsempty_iff h.rep hq).2 rfl] at hc
      simp at hc
    | cons x xs =>
      obtain ⟨hf1, hf2⟩ := lwpQueueFirstnodeI_rep h.rep hq
      simp only [hf2, appendLink]
      have hfree := h.rep.free_of_removed hq (List.nodup_cons.1 (h.rep.nodup hq)).1
      have ha := lwpQueueAppendI_rep hf1 (Function.update_self ..) hfree
      rw [Function.update_idem] at ha
      exact ⟨_, h.reorder hq ha (by simp; tauto), SameWait.update_ready _ _ _⟩
  · exact ⟨Qs, h, SameWait.refl _⟩

theorem lwpRotateReadyqueue_sched (h : SchedInv k Qs) (hx : k.Ready k.executing) (prio : Fin 256) :
    ∃ Qs', SchedInv (lwpRotateReadyqueue k prio) Qs' ∧ SameWait Qs Qs' ∧ (HeirOk k → HeirOk (lwpRotateReadyqueue k prio)) := by
  by_cases hp : (k.thr k.executing).ready = prio
  · rw [lwpRotateReadyqueue, if_pos hp]
    exact lwpThreadYield_sched h hx
  · obtain ⟨Qs', h', hw⟩ := h.readyRotate prio
    have hs : SchedInv (readyRotateHeir { k with mem := Libogc.readyRotate k.mem prio } prio) Qs' := by
      unfold readyRotateHeir
      split
      · exact h'.congr rfl rfl rfl
      · exact h'
    have hh' : HeirOk k → HeirOk (readyRotateHeir { k with mem := Libogc.readyRotate k.mem prio } prio) := by
      intro hh
      have hh₁ : HeirOk { k with mem := Libogc.readyRotate k.mem prio } := hh.congr rfl rfl
      unfold readyRotateHeir
      split
      · rename_i hr
        exact HeirOk.first h' hh₁ hr
      · exact hh₁
    rw [lwpRotateReadyqueue, if_neg hp]
    exact ⟨Qs', hs.switchWant _, hw, fun hh => (hh' hh).switchWant _⟩

/-! ### Suspending, resuming and starting a thread -/

theorem lwpSetstate_suspended_ne (s : BitVec 32) : lwpSetstate s stSuspended ≠ stReady := by
  intro he
  have := congrArg (fun x => x.getLsbD 1) he
  simp [lwpSetstate, stSuspended, stReady] at this

theorem lwpThreadSuspend_eq (k : Kernel T W) (t : T) : lwpThreadSuspend k t =
    if k.Ready t then
      lwpReadyBlock (k.setThr t (fun l => { l with suspendcnt := l.suspendcnt + 1, curState := stSuspended })) t
    else k.setThr t (fun l => { l with suspendcnt := l.suspendcnt + 1, curState := lwpSetstate l.curState stSuspended }) := by
  by_cases ht : (k.thr t).curState = stReady
  · simp [lwpThreadSuspend, lwpStateready, ht, Kernel.setState, Kernel.setThr, Kernel.Ready]
  · simp [lwpThreadSuspend, lwpStateready, ht, Kernel.setState, Kernel.setThr, Kernel.Ready]

theorem lwpThreadSuspend_not_ready (k : Kernel T W) (t : T) : ¬ (lwpThreadSuspend k t).Ready t := by
  rw [lwpThreadSuspend_eq, Kernel.Ready]
  split
  · rw [lwpReadyBlock_thr, setThr_thr_self]
    show stSuspended ≠ stReady
    decide
  · rw [setThr_thr_self]
    exact lwpSetstate_suspended_ne _

theorem lwpThreadSuspend_sched (h : SchedInv k Qs) (t : T) : ∃ Qs', SchedInv (lwpThreadSuspend k t) Qs' ∧ SameWait Qs Qs' ∧
      (HeirOk k → (∃ u, k.Ready u ∧ u ≠ t) → HeirOk (lwpThreadSuspend k t)) := by
  rw [lwpThreadSuspend_eq]
  have hne : stSuspended ≠ stReady := by decide
  split
  · rename_i ht
    set f : Lwp W → Lwp W := fun l => { l with suspendcnt := l.suspendcnt + 1, curState := stSuspended }
    obtain ⟨Qs', h', -, hw⟩ := lwpReadyBlock_sched h ht (f := f) ⟨rfl, rfl, rfl⟩ hne
    refine ⟨Qs', h', hw, fun hh => ?_⟩
    rintro ⟨u, hu, hut⟩
    exact lwpReadyBlock_heir h hh ht ⟨rfl, rfl, rfl⟩ hne hu hut
  · rename_i ht
    have hs := lwpSetstate_suspended_ne (k.thr t).curState
    refine ⟨Qs, h.setThr ht hs (h.fields t).1 (h.fields t).2, SameWait.refl _, fun hh _ => ?_⟩
    refine hh.leave (t := t) rfl ?_ (fun u hu => setThr_thr_ne _ _ _ hu) ?_
    · obtain ⟨x, h1, h2, -⟩ := hh
      rw [h1]
      rintro ⟨⟩
      exact ht h2
    · rw [Kernel.Ready, setThr_thr_self]; exact hs

theorem lwpThreadResume_sched (h : SchedInv k Qs) (hfree : ¬ k.Ready t → Free Qs t) (force : Bool) :
    ∃ Qs', SchedInv (lwpThreadResume k t force) Qs' ∧ SameWait Qs Qs' ∧ (HeirOk k → HeirOk (lwpThreadResume k t force)) := by
  set g : Lwp W → Lwp W := fun l => { l with suspendcnt := if force then 0 else l.suspendcnt - 1 } with hg
  have h₁ : SchedInv (k.setThr t g) Qs := h.setThr_samePrio t ⟨rfl, rfl, rfl⟩ rfl
  have hready : ∀ u, (k.setThr t g).Ready u ↔ k.Ready u := by
    intro u
    by_cases hu : u = t
    · subst hu; rw [Kernel.Ready, Kernel.Ready, setThr_thr_self]
    · rw [Kernel.Ready, Kernel.Ready, setThr_thr_ne _ _ _ hu]
  have hprio : ∀ u, ((k.setThr t g).thr u).curPrio = (k.thr u).curPrio := by
    intro u
    by_cases hu : u = t
    · subst hu; rw [setThr_thr_self]
    · rw [setThr_thr_ne _ _ _ hu]
  have hh₁ : HeirOk k → HeirOk (k.setThr t g) := by
    rintro ⟨x, h1, h2, h3⟩
    exact ⟨x, h1, (hready x).2 h2, fun u hu => by rw [hprio, hprio]; exact h3 u ((hready u).1 hu)⟩
  dsimp only [lwpThreadResume]
  generalize hk₁ : k.setThr t g = k₁ at h₁ hh₁ hready
  split
  · exact ⟨Qs, h₁, SameWait.refl _, hh₁⟩
  · split
    · rename_i hsus
      have hnr : ¬ k₁.Ready t := by
        intro hr
        rw [Kernel.Ready] at hr
        simp [lwpStatesuspended, hr, stReady] at hsus
      split
      · rename_i hr
        have hr' : lwpClearstate (k₁.thr t).curState stSuspended = stReady := by simpa [lwpStateready] using hr
        obtain ⟨Qs', h', hw⟩ := lwpReadyUnblock_sched h₁ hnr (hfree fun hkt => hnr ((hready t).2 hkt))
          (f := ({ · with curState := lwpClearstate (k₁.thr t).curState stSuspended })) ⟨rfl, rfl, rfl⟩ hr'
        exact ⟨Qs', h', hw, fun hh => lwpReadyUnblock_heir (hh₁ hh) hnr hr'⟩
      · rename_i hr
        have hr' : lwpClearstate (k₁.thr t).curState stSuspended ≠ stReady := fun e => hr (by simp [lwpStateready, e])
        refine ⟨Qs, h₁.setThr hnr hr' (h₁.fields t).1 (h₁.fields t).2, SameWait.refl _, fun hh => ?_⟩
        refine (hh₁ hh).leave (t := t) rfl ?_ (fun u hu => setThr_thr_ne _ _ _ hu) ?_
        · obtain ⟨x, h1, h2, -⟩ := hh₁ hh
          rw [h1]
          rintro ⟨⟩
          exact hnr h2
        · rw [Kernel.Ready, Kernel.setState, setThr_thr_self]; exact hr'
    · exact ⟨Qs, h₁, SameWait.refl _, hh₁⟩

theorem lwpThreadReady_thr (k : Kernel T W) (t : T) : (lwpThreadReady k t).thr = (k.setState t stReady).thr := by
  unfold lwpThreadReady
  dsimp only
  rw [apply_ite Kernel.thr]
  simp [lwpThreadCalcheir]

theorem lwpThreadReady_sched (h : SchedInv k Qs) (ht : ¬ k.Ready t) (hfree : Free Qs t) :
    ∃ Qs', SchedInv (lwpThreadReady k t) Qs' ∧ SameWait Qs Qs' ∧ HeirOk (lwpThreadReady k t) := by
  obtain ⟨Qs', h', hw⟩ := h.append ht hfree (f := ({ · with curState := stReady })) ⟨rfl, rfl, rfl⟩ rfl
  have hr : (lwpReadyAppend (k.setState t stReady) t).Ready t := by
    rw [Kernel.Ready, lwpReadyAppend_thr, Kernel.setState, setThr_thr_self]
  have hc : SchedInv (lwpThreadCalcheir (lwpReadyAppend (k.setState t stReady) t)) Qs' := h'.congr rfl rfl rfl
  exact ⟨Qs', hc.switchWant _, hw, (HeirOk.calcheir h' hr).switchWant _⟩

end Libogc
