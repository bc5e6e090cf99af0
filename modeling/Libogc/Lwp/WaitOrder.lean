import Libogc.Lwp.PrioRuns
import Libogc.Lwp.Wakeups
/-!
# WaitOrder — priority queues stay in order, whoever comes and goes

Many queues of mode PRIORITY, whose threads come in steps, time out and are taken off at any point between them.  Every
queue stays sorted (`WaitOrder`), as long as nobody changes the priority of a thread that waits; so a dequeue finds a thread
of numerically smallest priority.
-/
namespace Libogc

open Links

set_option linter.unusedSectionVars false

variable {T W : Type} [DecidableEq T] [DecidableEq W]

/-- **What stays of the queues**: they are sorted, and a search stands at a thread it goes past. -/
structure WaitOrder (k : Kernel T W) (Qs : QId T W → Option (List T)) (ph : Option (Enq T W)) : Prop where
  tq : TqInv k Qs ph
  mode : ∀ w, k.mode w = .priority
  order : ∀ w, ∃ waiting, PrioInv k Qs w waiting
  search : ∀ e c p, ph = some e → e.pc = .search c p → lwpStatesset (k.thr c).curState (k.tq e.queue).state = true →
    searchStops (k.prioOf e.thread) (k.prioOf c) = false

variable {k k' : Kernel T W} {Qs Qs' : QId T W → Option (List T)} {ph : Option (Enq T W)}

theorem order_congr (h : ∀ w, ∃ waiting, PrioInv k Qs w waiting) (hp : ∀ w t, Waits Qs w t → k'.prioOf t = k.prioOf t)
    (hw : (∀ w i, held Qs' (.wait w i) = held Qs (.wait w i)) ∧ ∀ l, held Qs' (.block2n l) = held Qs (.block2n l)) :
    ∀ w, ∃ waiting, PrioInv k' Qs' w waiting := by
  intro w
  obtain ⟨waiting, hi⟩ := h w
  exact ⟨waiting, hi.congr (fun t ht => hp w t ((hi.mem_iff t).1 ht)) (hw.1 w) (fun _ l _ => hw.2 l)⟩

theorem order_reread (h : ∀ w, ∃ waiting, PrioInv k Qs w waiting) (hr : Rep k.mem Qs) (hs : WaitShape k.mode Qs)
    (hr' : Rep k.mem Qs') (hs' : WaitShape k.mode Qs') (hm : ∀ w, k.mode w = .priority) : ∀ w, ∃ waiting, PrioInv k Qs' w waiting := by
  have hwait : ∀ w i, held Qs' (.wait w i) = held Qs (.wait w i) := fun w i => by
    rw [held, hr.unique hr' (hs.priority w (hm w) i) (hs'.priority w (hm w) i)]
    rfl
  intro w
  obtain ⟨waiting, hi⟩ := h w
  refine ⟨waiting, hi.congr (fun _ _ => rfl) (hwait w) fun i l hl => ?_⟩
  rw [held, hr.unique hr' (hs.chain w i l (hm w) hl).1 (hs'.chain w i l (hm w) (by rw [hwait]; exact hl)).1]
  rfl

variable {t : T} {w : W}

theorem WaitOrder.setThr (h : WaitOrder k Qs ph) {f : Lwp W → Lwp W} (hf : (k.thr t).SameBlock (f (k.thr t))) :
    WaitOrder (k.setThr t f) Qs ph := by
  have hsame : ∀ u, (k.setThr t f).prioOf u = k.prioOf u ∧ ((k.setThr t f).thr u).curState = (k.thr u).curState := fun u => by
    unfold Kernel.prioOf
    by_cases hu : u = t
    · subst hu; rw [setThr_thr_self]; exact ⟨hf.prio.1, hf.state⟩
    · rw [setThr_thr_ne _ _ _ hu]; exact ⟨rfl, rfl⟩
  refine ⟨h.tq.setThr hf, h.mode, order_congr h.order (fun _ t _ => (hsame t).1) ⟨fun _ _ => rfl, fun _ => rfl⟩,
    fun e c p he hp hset => ?_⟩
  rw [(hsame c).2] at hset
  rw [(hsame _).1, (hsame c).1]
  exact h.search e c p he hp hset

theorem WaitOrder.switch (h : WaitOrder k Qs none) (t : T) : WaitOrder { k with executing := t } Qs none :=
  ⟨h.tq.switch t, h.mode, order_congr h.order (fun _ _ _ => rfl) ⟨fun _ _ => rfl, fun _ => rfl⟩,
    fun _ _ _ he => by cases he⟩

theorem WaitOrder.enter (h : WaitOrder k Qs none) (w : W) (timeout : Bool) (hx : k.executing = t) (ht : k.Ready t) :
    WaitOrder ((lwpThreadqueueCsenter k w).setThr t (fun l => { l with wait := { l.wait with queue := some w } })) Qs
      (some ⟨t, w, timeout, .setstate⟩) := by
  set k' := (lwpThreadqueueCsenter k w).setThr t (fun l => { l with wait := { l.wait with queue := some w } }) with hk'
  have hp : ∀ u, k'.prioOf u = k.prioOf u := fun u => by
    unfold Kernel.prioOf
    by_cases hu : u = t
    · subst hu; rw [hk', setThr_thr_self]; rfl
    · rw [hk', setThr_thr_ne _ _ _ hu]; rfl
  refine ⟨h.tq.enter w timeout hx ht ⟨rfl, rfl, rfl⟩ rfl rfl rfl, fun w' => ?_,
    order_congr h.order (fun _ t _ => hp t) ⟨fun _ _ => rfl, fun _ => rfl⟩, fun e c p he hpc => by cases he; cases hpc⟩
  rw [← h.mode w']
  unfold Kernel.mode
  by_cases hw : w' = w
  · subst hw; simp [hk', lwpThreadqueueCsenter, Kernel.setTq]
  · simp [hk', lwpThreadqueueCsenter, Kernel.setTq, hw]

/-- **A priority changes**, but for one of a thread that waits, or is searching its place. -/
theorem WaitOrder.changepriority (h : WaitOrder k Qs ph) {prio : Fin 256} (hw : ∀ w, Waits Qs w t → k.prioOf t = prio)
    (hin : ∀ e, ph = some e → e.thread = t → ∀ c p, e.pc ≠ .search c p)
    (htr : ¬ k.Ready t → lwpClearstate (k.thr t).curState stTransient = (k.thr t).curState) (b : Bool) :
    ∃ Qs', WaitOrder (lwpThreadChangepriority k t prio b) Qs' ph ∧ SameWait Qs Qs' := by
  obtain ⟨Qs', h', hw'⟩ := h.tq.changepriority hin htr prio b
  have hne : ∀ u, u ≠ t → (lwpThreadChangepriority k t prio b).prioOf u = k.prioOf u := fun u hu => by
    rw [Kernel.prioOf, lwpThreadChangepriority_thr, setThr_thr_ne _ _ _ hu]
    rfl
  have hp : ∀ w u, Waits Qs w u → (lwpThreadChangepriority k t prio b).prioOf u = k.prioOf u := fun w u hu => by
    by_cases hut : u = t
    · subst hut
      rw [hw w hu, Kernel.prioOf, lwpThreadChangepriority_thr, setThr_thr_self, Lwp.withPriority_curPrio]
    · exact hne u hut
  refine ⟨Qs', ⟨h', fun w => ?_, order_congr h.order hp hw'.held, fun e c p he hpc hset => ?_⟩, hw'⟩
  · rw [Kernel.mode, lwpThreadChangepriority_tq]
    exact h.mode w
  · have het : e.thread ≠ t := fun e' => hin e he e' c p hpc
    rw [(lwpThreadChangepriority_keeps htr prio b c).1, lwpThreadChangepriority_tq] at hset
    have hc : Waits Qs e.queue c := ⟨_, .inl (((h.tq.phase e he).search c p hpc).2.2.2 hset)⟩
    rw [hne _ het, hp _ c hc]
    exact h.search e c p he hpc hset

/-! ## Taking a thread off -/

theorem PrioInv.unlinked_other {w' : W} {waiting : List T} (h : PrioInv k Qs w' waiting) (htq : TqInv k Qs ph) (ht : Waits Qs w t)
    (hne : w' ≠ w) (hu : Unlinked Qs t Qs') : PrioInv k Qs' w' waiting := by
  have hr := htq.sched.rep
  -- a leader of this queue leads no other
  have hapart : ∀ {v i j l}, l ∈ held Qs (.wait w' i) → Waits Qs v t → l ∈ held Qs (.wait v j) → False := by
    intro v i j l hl hv hl'
    have hvw := htq.waits_unique hv ht
    subst hvw
    exact hne (by cases hr.held_inj hl hl'; rfl)
  cases hu with
  | chained hq hb =>
    rename_i l ys₁ ys₂
    have hcl : t ∈ held Qs (.block2n l) := by rw [held_eq hq]; simp
    obtain ⟨v, j, -, hlv⟩ := htq.shape.leader l (List.ne_nil_of_mem hcl)
    refine h.congr (fun _ _ => rfl) (fun i => held_update_ne _ _ (by simp)) fun i x hx => held_update_ne _ _ ?_
    rintro ⟨⟩
    exact hapart hx ⟨j, .inr ⟨l, hlv, hcl⟩⟩ hlv
  | alone hq hb =>
    rename_i v j l₁ l₂
    have hv : Waits Qs v t := ⟨j, .inl (by rw [held_eq hq]; simp)⟩
    have hvw := htq.waits_unique hv ht
    subst hvw
    refine h.congr (fun _ _ => rfl) (fun i => held_update_ne _ _ ?_) fun i x hx => held_update_ne _ _ (by simp)
    rintro ⟨⟩
    exact hne rfl
  | promoted hq hb hcb =>
    rename_i v j l₁ l₂ c cs
    have htv : t ∈ held Qs (.wait v j) := by rw [held_eq hq]; simp
    have hv : Waits Qs v t := ⟨j, .inl htv⟩
    have hvw := htq.waits_unique hv ht
    subst hvw
    have hct : c ∈ held Qs (.block2n t) := by rw [held_eq hb]; simp
    refine h.congr (fun _ _ => rfl) (fun i => ?_) fun i x hx => ?_
    · rw [held_update_ne _ _ (by simp), held_update_ne _ _ (by rintro ⟨⟩; exact hne rfl), held_update_ne _ _ (by simp)]
    · have hxc : x ≠ c := by
        rintro rfl
        cases hr.held_inj hx hct
      have hxt : x ≠ t := by
        rintro rfl
        exact hapart hx hv htv
      rw [held_update_ne _ _ (by simpa using hxc), held_update_ne _ _ (by simp), held_update_ne _ _ (by simpa using hxt)]

theorem WaitOrder.takeOff (h : WaitOrder k Qs ph) (ht : Waits Qs w t) :
    ∃ Qs', WaitOrder (lwpThreadUnblock (stopTimer { k with mem := lwpThreadqueueUnlink k.mem t } t) t) Qs' ph := by
  obtain ⟨Qs₁, hun⟩ := h.tq.shape.unlinked (h.mode w) ht
  have hr := h.tq.sched.rep
  obtain ⟨Qs', h', hw', -, hready⟩ := h.tq.takeOff ht (hun.rep hr) (hun.took h.tq.shape hr)
  set k' := lwpThreadUnblock (stopTimer { k with mem := lwpThreadqueueUnlink k.mem t } t) t with hk'
  have hthr : k'.thr = (k.setThr t Lwp.takenOff).thr := lwpThreadUnblock_stopTimer_thr _ _
  have htq : k'.tq = k.tq := lwpThreadUnblock_stopTimer_tq _ _
  have hp : ∀ u, k'.prioOf u = k.prioOf u := fun u => by
    rw [Kernel.prioOf, hthr]
    by_cases hu : u = t
    · subst hu; rw [setThr_thr_self]; rfl
    · rw [setThr_thr_ne _ _ _ hu]; rfl
  refine ⟨Qs', h', fun w' => by rw [Kernel.mode, htq]; exact h.mode w', fun w' => ?_, fun e c p he hpc hset => ?_⟩
  · obtain ⟨waiting, hi⟩ := h.order w'
    by_cases hw : w' = w
    · subst hw
      exact ⟨_, (hi.unlinked hr ht hun).congr (fun u _ => hp u) (hw'.held.1 w') (fun i l _ => hw'.held.2 l)⟩
    · exact ⟨_, (hi.unlinked_other h.tq ht hw hun).congr (fun u _ => hp u) (hw'.held.1 w') (fun i l _ => hw'.held.2 l)⟩
  · have hc : c ≠ t := by
      rintro rfl
      exact not_ready_of_statesset hset hready
    rw [hp, hp]
    rw [hthr, setThr_thr_ne _ _ _ hc, htq] at hset
    exact h.search e c p he hpc hset

theorem WaitOrder.dequeue (h : WaitOrder k Qs none) (w : W) : ∃ Qs', WaitOrder (lwpThreadqueueDequeue k w).1 Qs' none ∧
    Dequeued k Qs none w (lwpThreadqueueDequeue k w).1 Qs' (lwpThreadqueueDequeue k w).2 ∧
    ∀ t, (lwpThreadqueueDequeue k w).2 = some t → ∀ u, Waits Qs w u → k.prioOf t ≤ k.prioOf u := by
  obtain ⟨Qs', h', hd⟩ := h.tq.dequeue w
  have hm : (k.tq w).mode = .priority := h.mode w
  cases hd' : lwpThreadqueueDequeue k w with
  | mk k' o =>
    rw [hd'] at h' hd
    simp only at h' hd ⊢
    cases hd with
    | early e he => cases he
    | nobody h1 h2 h3 h4 =>
      subst h3 h4
      exact ⟨Qs', ⟨h', h.mode, h.order, fun _ _ _ he => by cases he⟩, .nobody h1 h2 rfl rfl, fun t ht => by cases ht⟩
    | took t h1 h2 h3 h4 h5 =>
      -- the dequeue is the unlinking of the first leader of the first header list
      obtain ⟨waiting, hi⟩ := h.order w
      obtain ⟨i, l, hl, -⟩ := hi.empty t ((hi.mem_iff t).2 h1)
      obtain ⟨j, t', xs, hj, hq, hempty⟩ := firstHeader_some h.tq.sched.rep (h.tq.shape.priority w (h.mode w)) hl
      have hfirst : k.mem (.first (.wait w j)) = .node t' := h.tq.sched.rep.next_head hq
      have he : lwpThreadqueueDequeue k w =
          (lwpThreadUnblock (stopTimer { k with mem := lwpThreadqueueUnlink k.mem t' } t') t', some t') := by
        simp only [lwpThreadqueueDequeue, hm, lwpThreadqueueDequeuepriority, hj, hfirst]
      rw [he] at hd'
      cases hd'
      obtain ⟨Qs'', h''⟩ := h.takeOff h1
      refine ⟨Qs', ⟨h', h''.mode, order_reread h''.order h''.tq.sched.rep h''.tq.shape h'.sched.rep h'.shape h''.mode,
        fun _ _ _ he => by cases he⟩, .took t h1 h2 h3 h4 h5, fun t' ht' u hu => ?_⟩
      cases ht'
      obtain ⟨a, b, hab, ha, hb⟩ := hi.first hq hempty
      have hmem := (hi.mem_iff u).2 hu
      rw [hab] at hmem
      rcases List.mem_append.1 hmem with hm' | hm'
      · exact le_of_lt (ha u hm')
      · rcases List.mem_cons.1 hm' with rfl | hm'
        · exact le_refl _
        · exact hb u hm'

/-- **An expiry** ends a wait, or leaves a note for the thread on its way in. -/
theorem WaitOrder.tickle (h : WaitOrder k Qs ph) (ha : (k.thr t).timer = .active) :
    ∃ Qs', WaitOrder (lwpWdTickle k t) Qs' ph ∧ Expired k Qs ph t (lwpWdTickle k t) Qs' := by
  obtain ⟨Qs', h', hx⟩ := h.tq.tickle ha
  rcases h.tq.timer t ha with ⟨w, hw⟩ | ⟨e, rfl, rfl⟩
  · have h₁ : WaitOrder (k.setThr t (Lwp.expired (k.tq w).timeoutStatus)) Qs ph :=
      h.setThr ⟨⟨rfl, rfl, rfl⟩, rfl, rfl, fun ha => by cases ha⟩
    have hst : lwpStatewaitthreadqueue ((k.setThr t (Lwp.expired (k.tq w).timeoutStatus)).thr t).curState = true := by
      rw [(h₁.tq.waits w t hw).1]
      exact (h.tq.state w).2.2.2
    have hm : ((k.setThr t (Lwp.expired (k.tq w).timeoutStatus)).tq w).mode = .priority := h.mode w
    obtain ⟨Qs'', h''⟩ := h₁.takeOff hw
    have he := h.tq.tickle_eq hw
    simp only [lwpThreadqueueExtract, hm, lwpThreadqueueExtractpriority, hst, if_true] at he
    rw [← he] at h''
    exact ⟨Qs', ⟨h', h''.mode, order_reread h''.order h''.tq.sched.rep h''.tq.shape h'.sched.rep h'.shape h''.mode,
      h''.search⟩, hx⟩
  · obtain ⟨h₁, hthr, htq, -⟩ := h.tq.tickle_entering ha
    have hsame : ∀ u, (lwpWdTickle k e.thread).prioOf u = k.prioOf u ∧
        ((lwpWdTickle k e.thread).thr u).curState = (k.thr u).curState := fun u => by
      unfold Kernel.prioOf
      rw [hthr]
      by_cases hu : u = e.thread
      · subst hu; rw [setThr_thr_self]; exact ⟨rfl, rfl⟩
      · rw [setThr_thr_ne _ _ _ hu]; exact ⟨rfl, rfl⟩
    have hq : ∀ w, ((lwpWdTickle k e.thread).tq w).mode = (k.tq w).mode ∧
        ((lwpWdTickle k e.thread).tq w).state = (k.tq w).state := fun w => by
      rw [htq]
      split
      · by_cases hw : w = e.queue
        · subst hw; simp [Kernel.setTq]
        · simp [Kernel.setTq, hw]
      · exact ⟨rfl, rfl⟩
    have h₂ : WaitOrder (lwpWdTickle k e.thread) Qs (some e) := by
      refine ⟨h₁, fun w => (hq w).1.trans (h.mode w), order_congr h.order (fun _ u _ => (hsame u).1) ⟨fun _ _ => rfl, fun _ => rfl⟩,
        fun e' c p he hp hset => ?_⟩
      rw [(hsame c).2, (hq _).2] at hset
      rw [(hsame _).1, (hsame _).1]
      exact h.search e' c p he hp hset
    exact ⟨Qs', ⟨h', h₂.mode, order_reread h₂.order h₂.tq.sched.rep h₂.tq.shape h'.sched.rep h'.shape h₂.mode, h₂.search⟩, hx⟩

/-! ## Putting a thread on -/

section Search
variable {e : Enq T W}

variable {l₁ l₂ : List T}

/-- **The search ends at the thread's place**, on the list or behind a leader of its priority. -/
theorem WaitOrder.searchDone (h : WaitOrder k Qs (some e)) (hpc : e.pc ≠ .setstate) (hb : Qs (.block2n e.thread) = some [])
    {a : Link (QId T W) T} {p : Nat}
    (hpos : SearchPos Qs (.wait e.queue (headerIdx (k.prioOf e.thread))) (reverseSearch (k.prioOf e.thread)) a l₁ l₂)
    (hplace : (p ≠ (k.prioOf e.thread).val ∧ RightPlace k (k.prioOf e.thread) l₁ l₂) ∨ (p = (k.prioOf e.thread).val ∧ ∃ c, a = .node c ∧ k.prioOf c = k.prioOf e.thread)) :
    ∃ Qs', WaitOrder (searchDone k e.queue e.thread a p) Qs' none := by
  have hm := h.mode e.queue
  by_cases hs : (k.tq e.queue).syncState = .nothinghappend
  · have hok := h.tq.phase e rfl
    have hnr : ¬ k.Ready e.thread := by
      rw [Kernel.Ready, hok.blocked hpc]; exact (h.tq.state e.queue).1
    have hfree := h.tq.free hnr hok.out
    have hnot : ∀ w waiting, PrioInv k Qs w waiting → e.thread ∉ waiting := fun w waiting hi hmem =>
      hok.out w ((hi.mem_iff _).1 hmem)
    have hmode : ∀ (m : Mem (QId T W) T) (w : W),
        ({ k.setTq e.queue ({ · with syncState := .synchronized }) with mem := m } : Kernel T W).mode w = .priority := fun m w => by
      rw [← h.mode w]
      unfold Kernel.mode
      by_cases hw : w = e.queue
      · subst hw; simp [Kernel.setTq]
      · simp [Kernel.setTq, hw]
    rcases hplace with ⟨hne, hright⟩ | ⟨heq, c, rfl, hc⟩
    · obtain ⟨m, hd, hrep⟩ := searchDone_leader h.tq.sched.rep hfree hs (Ne.symm hne) hpos
      have hput := h.tq.shape.put_leader hfree hpos.1 (fun hm' => by rw [hm] at hm'; cases hm') (fun _ => hb)
      rw [hd]
      refine ⟨_, h.tq.putOn hpc hrep hput, hmode m, fun w => ?_, fun _ _ _ he => by cases he⟩
      obtain ⟨waiting, hi⟩ := h.order w
      by_cases hw : w = e.queue
      · subst hw
        exact ⟨_, (hi.put_leader (hnot _ _ hi) hpos.1 (held_eq hb) hright).congr (fun _ _ => rfl) (fun _ => rfl)
          (fun _ _ _ => rfl)⟩
      · refine ⟨_, hi.congr (fun _ _ => rfl) (fun i => held_update_ne _ _ ?_) (fun i l _ => held_update_ne _ _ (by simp))⟩
        rintro ⟨⟩
        exact hw rfl
    · have hcm := hpos.mem
      obtain ⟨ys, hys⟩ := Option.isSome_iff_exists.1 (h.tq.shape.chain e.queue _ c hm hcm).1
      obtain ⟨m, hd, hrep⟩ := searchDone_chained h.tq.sched.rep hfree hs heq.symm hys
      have hput := h.tq.shape.put_chained h.tq.sched.rep hfree hm hcm hys hb
      rw [hd]
      refine ⟨_, h.tq.putOn hpc hrep hput, hmode m, fun w => ?_, fun _ _ _ he => by cases he⟩
      obtain ⟨waiting, hi⟩ := h.order w
      by_cases hw : w = e.queue
      · subst hw
        exact ⟨_, (hi.put_chained (hnot _ _ hi) hcm hc hys).congr (fun _ _ => rfl) (fun _ => rfl) (fun _ _ _ => rfl)⟩
      · refine ⟨_, hi.congr (fun _ _ => rfl) (fun i => held_update_ne _ _ (by simp)) (fun i l hl => held_update_ne _ _ ?_)⟩
        rintro ⟨⟩
        cases h.tq.sched.rep.held_inj hl hcm
        exact hw rfl
  · have he : Libogc.searchDone k e.queue e.thread a p = lwpThreadqueueSynchronize k e.queue e.thread := by
      unfold Libogc.searchDone
      rw [if_pos hs]
    rw [he]
    obtain ⟨Qs', h', hfr, -, hw'⟩ := h.tq.synchronize_same hpc hs
    refine ⟨Qs', h', fun w => ?_, order_congr h.order (fun _ u _ => hfr.prioOf u) hw'.held, fun _ _ _ he => by cases he⟩
    rw [Kernel.mode, hfr.tq w]
    exact h.mode w

/-- **A round of the search** goes past a thread, or ends at the right place. -/
theorem WaitOrder.searchRound (h : WaitOrder k Qs (some e)) (hpc : e.pc ≠ .setstate) (hb : Qs (.block2n e.thread) = some [])
    {pos : Link (QId T W) T × Nat}
    (hpos : SearchPos Qs (.wait e.queue (headerIdx (k.prioOf e.thread))) (reverseSearch (k.prioOf e.thread)) pos.1 l₁ l₂)
    (hp : pos.2 ≠ (k.prioOf e.thread).val) (hpass : Passed k (k.prioOf e.thread) (reverseSearch (k.prioOf e.thread)) l₁ l₂) :
    ∃ Qs', WaitOrder (searchRound k e pos).1 Qs' (searchRound k e pos).2 := by
  obtain ⟨a, p⟩ := pos
  simp only at hpos hp
  obtain ⟨waiting, hi⟩ := h.order e.queue
  rcases hpos.cases with ⟨c, rfl⟩ | hne
  · have hround : Libogc.searchRound k e (.node c, p) =
        if searchStops (k.prioOf e.thread) (k.prioOf c) then
          (Libogc.searchDone k e.queue e.thread (.node c) (k.prioOf c).val, none)
        else (k, some { e with pc := .search c (k.prioOf c).val }) := rfl
    rw [hround]
    cases hst : searchStops (k.prioOf e.thread) (k.prioOf c) with
    | true =>
      refine h.searchDone hpc hb hpos ?_
      by_cases heq : k.prioOf c = k.prioOf e.thread
      · exact .inr ⟨by rw [heq], c, rfl, heq⟩
      · have hsort := hi.sorted (headerIdx (k.prioOf e.thread))
        rw [held_eq hpos.1] at hsort
        exact .inl ⟨fun e' => heq (Fin.ext e'), rightPlace_of_stops hpos.split hsort hpass hst heq⟩
    | false =>
      have hcp : (k.prioOf c).val ≠ (k.prioOf e.thread).val := by
        intro heq
        rw [Fin.ext heq, searchStops] at hst
        split at hst <;> simp at hst
      refine ⟨Qs, h.tq.searching hpc (h.mode _) hb hcp hpos.mem, h.mode, h.order, fun e' c' p' he hpc' _ => ?_⟩
      cases he
      cases hpc'
      exact hst
  · have hround : Libogc.searchRound k e (a, p) = (Libogc.searchDone k e.queue e.thread a p, none) := by
      cases a with
      | node c => exact absurd rfl (hne c)
      | null => rfl
      | head q => rfl
      | tail q => rfl
    rw [hround]
    refine h.searchDone hpc hb hpos (.inl ⟨hp, ?_⟩)
    have hnil := hpos.ahead_nil hne
    unfold ahead Passed at *
    cases hrev : reverseSearch (k.prioOf e.thread) with
    | true => rw [hrev] at hnil hpass; exact ⟨by rw [show l₁ = [] from hnil]; simp, hpass⟩
    | false => rw [hrev] at hnil hpass; exact ⟨hpass, by rw [show l₂ = [] from hnil]; simp⟩

theorem passed_start {p : Fin 256} (h : if reverseSearch p then l₂ = [] else l₁ = []) : Passed k p (reverseSearch p) l₁ l₂ := by
  unfold Passed
  split
  · rename_i hr
    rw [if_pos hr] at h
    subst h
    simp
  · rename_i hr
    rw [if_neg hr] at h
    subst h
    simp

theorem WaitOrder.enqNext (h : WaitOrder k Qs (some e)) : ∃ Qs', WaitOrder (enqNext k e).1 Qs' (enqNext k e).2 ∧
    EnqFrame k e (enqNext k e).1 ∧ EnqOutcome k Qs e (enqNext k e).1 Qs' (enqNext k e).2 := by
  obtain ⟨Qs', h', hfr, hout⟩ := h.tq.enqNext
  suffices hs : ∃ Qs'', WaitOrder (Libogc.enqNext k e).1 Qs'' (Libogc.enqNext k e).2 by
    obtain ⟨Qs'', h''⟩ := hs
    exact ⟨Qs', ⟨h', h''.mode, order_reread h''.order h''.tq.sched.rep h''.tq.shape h'.sched.rep h'.shape h''.mode, h''.search⟩,
      hfr, hout⟩
  have hmode : ∀ w, (Libogc.enqNext k e).1.mode w = .priority := fun w => by
    rw [Kernel.mode, hfr.tq w]
    exact h.mode w
  have hprio := hfr.prioOf
  have hok := h.tq.phase e rfl
  have hm : (k.tq e.queue).mode = .priority := h.mode e.queue
  unfold Libogc.enqNext at *
  cases hpc : e.pc with
  | setstate =>
    rw [hpc] at hmode hprio
    obtain ⟨Qs₁, h₁, hw₁⟩ := h.tq.enq_setstate hpc
    exact ⟨Qs₁, h₁, hmode, order_congr h.order (fun _ u _ => hprio u) hw₁.held, fun e' c p he hp => by cases he; cases hp⟩
  | timer =>
    rw [hpc] at hmode hprio
    exact ⟨Qs, h.tq.enq_timer hpc, hmode, order_congr h.order (fun _ u _ => hprio u) ⟨fun _ _ => rfl, fun _ => rfl⟩,
      fun e' c p he hp => by cases he; cases hp⟩
  | link =>
    simp only [hm]
    have h₁ : WaitOrder { k with mem := lwpQueueInitEmpty k.mem (.block2n e.thread) }
        (Function.update Qs (.block2n e.thread) (some [])) (some e) :=
      ⟨h.tq.initBlock, h.mode, order_congr h.order (fun _ _ _ => rfl)
        ⟨fun _ _ => h.tq.initBlock_held _, fun _ => h.tq.initBlock_held _⟩,
        fun e' c p he hp => by cases he; rw [hpc] at hp; cases hp⟩
    obtain ⟨xs, hxs⟩ := Option.isSome_iff_exists.1
      (h₁.tq.shape.priority e.queue (h₁.mode e.queue) (headerIdx (k.prioOf e.thread)))
    obtain ⟨l₁, l₂, hpos, hend⟩ := searchStart_pos h₁.tq.sched.rep hxs
    exact h₁.searchRound (by rw [hpc]; simp) (by simp) hpos (searchStart_prio _ _ _) (passed_start hend)
  | search c p =>
    obtain ⟨-, hb, hp, hc⟩ := hok.search c p hpc
    have hne : e.pc ≠ .setstate := by rw [hpc]; simp
    simp only
    by_cases hset : lwpStatesset (k.thr c).curState (k.tq e.queue).state = true
    · -- the search steps past `c`, which it was right to go past
      obtain ⟨waiting, hi⟩ := h.order e.queue
      have hst := h.search e c p rfl hpc hset
      have hcm := hc hset
      obtain ⟨m₁, m₂, hq⟩ := exists_of_mem_held hcm
      have hsort := hi.sorted (headerIdx (k.prioOf e.thread))
      rw [show held Qs (.wait e.queue (headerIdx (k.prioOf e.thread))) = m₁ ++ c :: m₂ from held_eq hq, List.pairwise_append,
        List.pairwise_cons] at hsort
      obtain ⟨-, ⟨hafter, -⟩, hbefore⟩ := hsort
      obtain ⟨hfwd, hback⟩ := SearchPos.next h.tq.sched.rep hq
      have hnext : searchNext k e c p =
          if reverseSearch (k.prioOf e.thread) then (k.mem (.prev c), p) else (k.mem (.next c), p) := by
        unfold searchNext
        simp only [hset, Bool.not_true, Bool.false_eq_true, if_false]
        rfl
      rw [hnext]
      unfold searchStops at hst
      cases hrev : reverseSearch (k.prioOf e.thread) with
      | true =>
        rw [hrev] at hst
        simp only [if_true, decide_eq_false_iff_not, not_le] at hst ⊢
        refine h.searchRound hne hb (by rw [hrev]; exact hback) hp ?_
        rw [hrev]
        intro x hx
        rcases List.mem_cons.1 hx with rfl | hx
        · exact hst
        · exact hst.trans (hafter x hx)
      | false =>
        rw [hrev] at hst
        simp only [Bool.false_eq_true, if_false, decide_eq_false_iff_not, not_le] at hst ⊢
        refine h.searchRound hne hb (by rw [hrev]; exact hfwd) hp ?_
        rw [hrev]
        intro x hx
        rcases List.mem_append.1 hx with hx | hx
        · exact (hbefore x hx c (by simp)).trans hst
        · rw [List.mem_singleton.1 hx]; exact hst
    · -- `c` is gone, so the search starts over
      have hnext : searchNext k e c p = searchStart k.mem e.queue (k.prioOf e.thread) := by
        simp [searchNext, hset, Kernel.prioOf]
      rw [hnext]
      obtain ⟨xs, hxs⟩ := Option.isSome_iff_exists.1
        (h.tq.shape.priority e.queue (h.mode e.queue) (headerIdx (k.prioOf e.thread)))
      obtain ⟨l₁, l₂, hpos, hend⟩ := searchStart_pos h.tq.sched.rep hxs
      exact h.searchRound hne hb hpos (searchStart_prio _ _ _) (passed_start hend)

end Search

end Libogc
