import Libogc.Aram.Arqueue
/-!
# ArqueueRuns — the ARAM queue as one DMA engine and two lists

`ArqInv` reads the links as two lists of requests and says what phase the engine is in: idle with nothing queued, one DMA in flight,
or a callback running with none.  A removal that finds its request queued, or flushes between two transfers, keeps it; one that comes
while a chunk is in flight may not (`arqCancelOk`).
-/
namespace Libogc

open Links Runs

section Inv
variable {R : Type} [DecidableEq R] {s : ArqSys R} {his los : List R} {r : R}

/-- The two queues. -/
def arqQs (his los : List R) : ArqQ → Option (List R)
  | .hi => some his
  | .lo => some los

omit [DecidableEq R] in
theorem arqQs_hi (his los xs : List R) : Function.update (arqQs his los) .hi (some xs) = arqQs xs los := by
  funext q
  cases q <;> rfl

omit [DecidableEq R] in
theorem arqQs_lo (his los xs : List R) : Function.update (arqQs his los) .lo (some xs) = arqQs his xs := by
  funext q
  cases q <;> rfl

/-- **The engine's phase.** -/
def ArqPhase (s : ArqSys R) (his los : List R) : Prop :=
  match s.inCallback with
  | none => (s.callbackHi.isSome ↔ s.pendingHi.isSome) ∧ (s.callbackLo.isSome → s.pendingLo.isSome ∧ s.pendingHi = none) ∧
      (if s.pendingHi.isSome ∨ s.pendingLo.isSome then s.busy = 1 else s.busy ≤ 1) ∧
      (s.pendingHi = none → s.pendingLo = none → s.busy = 0 → his = [] ∧ los = [])
  | some .hi => s.busy = 0 ∧ s.pendingHi.isSome ∧ s.callbackHi.isSome ∧ s.callbackLo = none
  | some .lo => s.busy = 0 ∧ s.pendingLo.isSome ∧ s.callbackLo.isSome ∧ s.pendingHi = none ∧ s.callbackHi = none

/-- **The queues hold exactly the waiting requests**, none of them removed, and every DMA was started with the engine idle and for a
request that had not been removed. -/
structure ArqLists (s : ArqSys R) (his los : List R) : Prop where
  rep : Rep s.links (arqQs his los)
  hi : ∀ r, r ∈ his ↔ s.waiting r = true ∧ (s.req r).prio ≠ arqPrioLo
  lo : ∀ r, r ∈ los ↔ s.waiting r = true ∧ (s.req r).prio = arqPrioLo
  kept : ∀ r, s.waiting r = true → s.dropped r = false
  going : ∀ r, s.pendingLo = some r → s.callbackLo = none → s.dropped r = false
  log : ∀ x ∈ s.log, x.busy = 0 ∧ x.dropped = false

structure ArqInv (s : ArqSys R) (his los : List R) : Prop extends ArqLists s his los where
  hiOut : ∀ r, s.pendingHi = some r → s.waiting r = true → s.inCallback = some .hi
  loOut : ∀ r, s.pendingLo = some r → s.waiting r = true → s.inCallback = some .lo
  phase : ArqPhase s his los

/-- **The engine is free**: the next DMA can be started. -/
structure ArqReady (s : ArqSys R) (his los : List R) : Prop extends ArqLists s his los where
  loOut : ∀ r, s.pendingLo = some r → s.waiting r = false
  idle : s.inCallback = none ∧ s.busy = 0 ∧ s.pendingHi = none ∧ s.callbackHi = none ∧ s.callbackLo = none

/-! ## The next DMA -/

variable {t his' los' : List R} {s' : ArqSys R} {m : Mem ArqQ R} {owner dir prio aramAddr mramAddr len : Nat}
  {cb : Option ArqCallback}

theorem arqNextDMA_hi (h : Rep s.links (arqQs (r :: t) los)) :
    arqNextDMA s = arqStartHi { s with links := (lwpQueueGetI s.links .hi).1 } r := by
  obtain ⟨-, hgot⟩ := lwpQueueGetI_cons h (q := .hi) rfl
  unfold arqNextDMA arqPopTaskQueueHi
  dsimp only
  rw [hgot]
  dsimp only
  rw [if_neg (by simp [arqStartHi])]

theorem arqNextDMA_lo (h : Rep s.links (arqQs [] los)) (hp : s.pendingHi = none) : arqNextDMA s = arqServiceQueueLo s := by
  have hgot := lwpQueueGetI_empty h (q := .hi) rfl
  unfold arqNextDMA arqPopTaskQueueHi
  rw [hgot]
  dsimp only
  rw [if_pos hp]

theorem arqServiceQueueLo_cons (h : Rep s.links (arqQs his (r :: t))) (hp : s.pendingLo = none) :
    arqServiceQueueLo s = arqServiceLo { s with links := (lwpQueueGetI s.links .lo).1, pendingLo := some r } r := by
  obtain ⟨-, hgot⟩ := lwpQueueGetI_cons h (q := .lo) rfl
  unfold arqServiceQueueLo
  rw [hp]
  dsimp only
  rw [hgot]

theorem arqServiceQueueLo_empty (h : Rep s.links (arqQs his [])) (hp : s.pendingLo = none) : arqServiceQueueLo s = s := by
  have hgot := lwpQueueGetI_empty h (q := .lo) rfl
  unfold arqServiceQueueLo
  rw [hp, hgot]
  cases s
  cases hp
  rfl

/-- **What the next DMA is**, from a free engine: the head of the high queue, else the low request in progress, else the head of the low
queue, else none. -/
inductive ArqNextDMA (s : ArqSys R) : List R → List R → ArqSys R → List R → List R → Prop where
  | hi {r : R} {t los : List R} {m : Mem ArqQ R} (hm : Rep m (arqQs t los)) :
    ArqNextDMA s (r :: t) los (arqStartHi { s with links := m } r) t los
  | going {r : R} {los : List R} (hp : s.pendingLo = some r) : ArqNextDMA s [] los (arqServiceLo s r) [] los
  | lo {r : R} {t : List R} {m : Mem ArqQ R} (hp : s.pendingLo = none) (hm : Rep m (arqQs [] t)) :
    ArqNextDMA s [] (r :: t) (arqServiceLo { s with links := m, pendingLo := some r } r) [] t
  | none (hp : s.pendingLo = none) : ArqNextDMA s [] [] s [] []

theorem arqNextDMA_cases (h : Rep s.links (arqQs his los)) (hp : s.pendingHi = none) :
    ∃ his' los', ArqNextDMA s his los (arqNextDMA s) his' los' := by
  cases his with
  | cons r t =>
    rw [arqNextDMA_hi h]
    have hm := (lwpQueueGetI_cons h (q := .hi) rfl).1
    rw [arqQs_hi] at hm
    exact ⟨t, los, .hi hm⟩
  | nil =>
    rw [arqNextDMA_lo h hp]
    cases hl : s.pendingLo with
    | some r =>
      have : arqServiceQueueLo s = arqServiceLo s r := by
        unfold arqServiceQueueLo
        rw [hl]
      rw [this]
      exact ⟨[], los, .going hl⟩
    | none =>
      cases los with
      | nil =>
        rw [arqServiceQueueLo_empty h hl]
        exact ⟨[], [], .none hl⟩
      | cons r t =>
        rw [arqServiceQueueLo_cons h hl]
        have hm := (lwpQueueGetI_cons h (q := .lo) rfl).1
        rw [arqQs_lo] at hm
        exact ⟨[], t, .lo hl hm⟩

/-! ## Starting a DMA -/

theorem setReq_req_self (s : ArqSys R) (r : R) (f : ArqRequest → ArqRequest) : (s.setReq r f).req r = f (s.req r) :=
  Function.update_self ..

theorem setReq_prio (s : ArqSys R) (r : R) {f : ArqRequest → ArqRequest} (hf : (f (s.req r)).prio = (s.req r).prio) (u : R) :
    ((s.setReq r f).req u).prio = (s.req u).prio := by
  by_cases hu : u = r
  · subst hu
    rw [setReq_req_self]
    exact hf
  · show (Function.update s.req r _ u).prio = _
    rw [Function.update_of_ne hu]

/-- The lists after a DMA was started for a request that was the head of a queue, or on none. -/
theorem ArqLists.started (h : ArqLists s his los) (hrep : Rep s'.links (arqQs his' los'))
    (hw : s'.waiting = Function.update s.waiting r false) (hprio : ∀ u, (s'.req u).prio = (s.req u).prio)
    (hd : s'.dropped = s.dropped) (hhi : ∀ u, u ∈ his' ↔ u ∈ his ∧ u ≠ r) (hlo : ∀ u, u ∈ los' ↔ u ∈ los ∧ u ≠ r)
    (hgoing : ∀ u, s'.pendingLo = some u → s'.callbackLo = none → s.dropped u = false)
    (hlog : ∀ x ∈ s'.log, x ∈ s.log ∨ (x.busy = 0 ∧ x.dropped = false)) : ArqLists s' his' los' := by
  have hwait : ∀ u, s'.waiting u = true ↔ s.waiting u = true ∧ u ≠ r := by
    intro u
    rw [hw]
    by_cases hu : u = r
    · rw [hu, Function.update_self]
      simp
    · rw [Function.update_of_ne hu]
      simp [hu]
  refine ⟨hrep, fun u => ?_, fun u => ?_, fun u hu => ?_, fun u h1 h2 => ?_, fun x hx => ?_⟩
  · rw [hhi u, h.hi u, hwait u, hprio u]
    tauto
  · rw [hlo u, h.lo u, hwait u, hprio u]
    tauto
  · rw [hd]
    exact h.kept u ((hwait u).1 hu).1
  · rw [hd]
    exact hgoing u h1 h2
  · rcases hlog x hx with hx | hx
    · exact h.log x hx
    · exact hx

theorem ArqReady.startHi (h : ArqReady s (r :: t) los) (hm : Rep m (arqQs t los)) : ArqInv (arqStartHi { s with links := m } r) t los := by
  obtain ⟨hcb, hbusy, hph, hch, hcl⟩ := h.idle
  have hnd := List.nodup_cons.1 (h.rep.nodup (q := .hi) rfl)
  have hr := (h.hi r).1 List.mem_cons_self
  have hlists : ArqLists (arqStartHi { s with links := m } r) t los := by
    refine h.toArqLists.started hm rfl (fun u => setReq_prio _ r rfl u) rfl (fun u => ?_) (fun u => ?_) (fun u hu _ => ?_)
      fun x hx => ?_
    · constructor
      · exact fun hu => ⟨List.mem_cons_of_mem _ hu, fun he => hnd.1 (he ▸ hu)⟩
      · rintro ⟨hu, hne⟩
        rcases List.mem_cons.1 hu with he | hu
        · exact absurd he hne
        · exact hu
    · constructor
      · intro hu
        refine ⟨hu, fun he => ?_⟩
        rw [he, h.lo r] at hu
        exact hr.2 hu.2
      · exact fun hu => hu.1
    · exact h.going u hu hcl
    · rcases List.mem_append.1 hx with hx | hx
      · exact .inl hx
      · rw [List.mem_singleton.1 hx]
        exact .inr ⟨hbusy, h.kept r hr.1⟩
  refine ⟨hlists, fun u hu hw => ?_, fun u hu hw => ?_, ?_⟩
  · obtain rfl : r = u := Option.some.inj hu
    exact absurd hw (by show ¬ Function.update s.waiting r false r = true; rw [Function.update_self]; simp)
  · have hne := h.loOut u hu
    have hw' : Function.update s.waiting r false u = true := hw
    by_cases hur : u = r
    · rw [hur, Function.update_self] at hw'
      cases hw'
    · rw [Function.update_of_ne hur, hne] at hw'
      cases hw'
  · have hcb' : (arqStartHi { s with links := m } r).inCallback = none := hcb
    unfold ArqPhase
    rw [hcb']
    refine ⟨⟨fun _ => rfl, fun _ => rfl⟩, fun hc => ?_, ?_, fun hc => by cases hc⟩
    · have : s.callbackLo.isSome := hc
      rw [hcl] at this
      cases this
    · rw [if_pos (.inl rfl)]
      show s.busy + 1 = 1
      rw [hbusy]

/-- What `__ARQServiceQueueLo` does besides the DMA: a last chunk leaves its callback, another what is left of the request. -/
theorem arqServiceLo_eq (s : ArqSys R) (r : R) :
    arqServiceLo s r = if (s.req r).len ≤ s.chunkSize then
        { arStartDMA (s.setReq r (.setState .running)) r (s.req r).dir (s.req r).mramAddr (s.req r).aramAddr (s.req r).len with
          callbackLo := some (s.req r).callback }
      else (arStartDMA (s.setReq r (.setState .running)) r (s.req r).dir (s.req r).mramAddr (s.req r).aramAddr s.chunkSize).setReq r
        (.advance s.chunkSize) := by
  unfold arqServiceLo
  dsimp only
  rw [setReq_req_self]
  rfl

/-- **A chunk of low priority is started**, with nothing of high priority queued. -/
theorem ArqLists.serviceLo (h : ArqLists s [] los)
    (hidle : s.inCallback = none ∧ s.busy = 0 ∧ s.pendingHi = none ∧ s.callbackHi = none ∧ s.callbackLo = none)
    (hm : Rep m (arqQs [] los')) (hlos : ∀ u, u ∈ los' ↔ u ∈ los ∧ u ≠ r) (hd : s.dropped r = false) :
    ArqInv (arqServiceLo { s with links := m, pendingLo := some r } r) [] los' := by
  obtain ⟨hcb, hbusy, hph, hch, hcl⟩ := hidle
  obtain ⟨s₁, hs₁⟩ : ∃ s₁ : ArqSys R, s₁ = { s with links := m, pendingLo := some r } := ⟨_, rfl⟩
  obtain ⟨s₂, hs₂⟩ : ∃ s₂, s₂ = arqServiceLo s₁ r := ⟨_, rfl⟩
  -- what both kinds of chunk have in common
  have hcommon : s₂.links = m ∧ s₂.waiting = Function.update s.waiting r false ∧ (∀ u, (s₂.req u).prio = (s.req u).prio) ∧
      s₂.dropped = s.dropped ∧ s₂.pendingLo = some r ∧ s₂.pendingHi = none ∧ s₂.callbackHi = none ∧ s₂.inCallback = none ∧
      s₂.busy = 1 ∧ ∀ x ∈ s₂.log, x ∈ s.log ∨ (x.busy = 0 ∧ x.dropped = false) := by
    have hlog : ∀ x ∈ s.log ++ [⟨s.post r, (s.req r).dir, (s.req r).mramAddr, (s.req r).aramAddr, (s.req r).len, s.busy,
        s.dropped r, arqOldest s.posts s.log⟩], x ∈ s.log ∨ (x.busy = 0 ∧ x.dropped = false) := by
      intro x hx
      rcases List.mem_append.1 hx with hx | hx
      · exact .inl hx
      · rw [List.mem_singleton.1 hx]
        exact .inr ⟨hbusy, hd⟩
    have hlog' : ∀ x ∈ s.log ++ [⟨s.post r, (s.req r).dir, (s.req r).mramAddr, (s.req r).aramAddr, s.chunkSize, s.busy,
        s.dropped r, arqOldest s.posts s.log⟩], x ∈ s.log ∨ (x.busy = 0 ∧ x.dropped = false) := by
      intro x hx
      rcases List.mem_append.1 hx with hx | hx
      · exact .inl hx
      · rw [List.mem_singleton.1 hx]
        exact .inr ⟨hbusy, hd⟩
    rw [hs₂, arqServiceLo_eq, hs₁]
    split
    · refine ⟨rfl, rfl, fun u => setReq_prio _ r rfl u, rfl, rfl, hph, hch, hcb, ?_, hlog⟩
      show s.busy + 1 = 1
      rw [hbusy]
    · refine ⟨rfl, rfl, fun u => ?_, rfl, rfl, hph, hch, hcb, ?_, hlog'⟩
      · rw [setReq_prio _ r rfl u]
        exact setReq_prio _ r rfl u
      · show s.busy + 1 = 1
        rw [hbusy]
  obtain ⟨c1, c2, c3, c4, c5, c6, c7, c8, c9, c10⟩ := hcommon
  rw [← hs₁, ← hs₂]
  have hlists : ArqLists s₂ [] los' := by
    refine h.started (by rw [c1]; exact hm) c2 c3 c4 (fun u => by simp) hlos (fun u hu _ => ?_) c10
    rw [c5] at hu
    cases hu
    exact hd
  refine ⟨hlists, fun u hu _ => ?_, fun u hu hw => ?_, ?_⟩
  · rw [c6] at hu
    cases hu
  · rw [c5] at hu
    cases hu
    rw [c2, Function.update_self] at hw
    cases hw
  · unfold ArqPhase
    rw [c8]
    refine ⟨by rw [c6, c7]; simp, fun _ => ⟨by rw [c5]; rfl, c6⟩, ?_, fun _ hc => ?_⟩
    · rw [c5, if_pos (.inr rfl)]
      exact c9
    · rw [c5] at hc
      cases hc

/-- **From a free engine** the next DMA, if there is one, leaves the invariant. -/
theorem ArqReady.started (h : ArqReady s his los) (hn : ArqNextDMA s his los s' his' los') : ArqInv s' his' los' := by
  cases hn with
  | hi hm => exact h.startHi hm
  | @going r los hp =>
    have hs : s = { s with links := s.links, pendingLo := some r } := by
      cases s
      cases hp
      rfl
    have hw := h.loOut r hp
    rw [hs]
    refine h.toArqLists.serviceLo h.idle h.rep (fun u => ?_) (h.going r hp h.idle.2.2.2.2)
    constructor
    · intro hu
      refine ⟨hu, fun he => ?_⟩
      rw [he, h.lo r, hw] at hu
      cases hu.1
    · exact fun hu => hu.1
  | @lo r t m hp hm =>
    have hnd := List.nodup_cons.1 (h.rep.nodup (q := .lo) rfl)
    have hr := (h.lo r).1 List.mem_cons_self
    refine h.toArqLists.serviceLo h.idle hm (fun u => ?_) (h.kept r hr.1)
    constructor
    · exact fun hu => ⟨List.mem_cons_of_mem _ hu, fun he => hnd.1 (he ▸ hu)⟩
    · rintro ⟨hu, hne⟩
      rcases List.mem_cons.1 hu with he | hu
      · exact absurd he hne
      · exact hu
  | none hp =>
    obtain ⟨hcb, hbusy, hph, hch, hcl⟩ := h.idle
    refine ⟨h.toArqLists, fun r hr => ?_, fun r hr => ?_, ?_⟩
    · rw [hph] at hr
      cases hr
    · rw [hp] at hr
      cases hr
    · unfold ArqPhase
      rw [hcb]
      refine ⟨by rw [hch, hph]; simp, fun hc => ?_, ?_, fun _ _ _ => ⟨rfl, rfl⟩⟩
      · rw [hcl] at hc
        cases hc
      · rw [hbusy, hph, hp]
        simp

theorem ArqReady.next (h : ArqReady s his los) : ∃ his' los', ArqInv (arqNextDMA s) his' los' := by
  obtain ⟨his', los', hn⟩ := arqNextDMA_cases h.rep h.idle.2.2.1
  exact ⟨his', los', h.started hn⟩

/-! ## Posting -/

omit [DecidableEq R] in
theorem ArqInv.idle_of_none (h : ArqInv s his los) (hlo : s.pendingLo = none) (hhi : s.pendingHi = none) (hb : s.busy = 0) :
    s.inCallback = none ∧ s.busy = 0 ∧ s.pendingHi = none ∧ s.callbackHi = none ∧ s.callbackLo = none := by
  have hp := h.phase
  unfold ArqPhase at hp
  rw [hlo, hhi] at hp
  split at hp
  · rename_i hcb
    obtain ⟨h1, h2, -, -⟩ := hp
    refine ⟨hcb, hb, hhi, ?_, ?_⟩
    · cases hc : s.callbackHi with
      | none => rfl
      | some c => rw [hc] at h1; simp at h1
    · cases hc : s.callbackLo with
      | none => rfl
      | some c => rw [hc] at h2; simp at h2
  · simp at hp
  · simp at hp

/-- The queue a request is posted to. -/
def arqPut (prio : Nat) (r : R) (his los : List R) : List R × List R :=
  if prio = arqPrioLo then (his, los ++ [r]) else (his ++ [r], los)

theorem arqPut_rep (h : Rep m (arqQs his los)) (hfree : r ∉ his ∧ r ∉ los) (prio : Nat) :
    Rep (lwpQueueAppendI m (if prio = arqPrioLo then .lo else .hi) r) (arqQs (arqPut prio r his los).1 (arqPut prio r his los).2) := by
  have hf : Free (arqQs his los) r := by
    intro q xs hq
    cases q with
    | lo =>
      cases hq
      exact hfree.2
    | hi =>
      cases hq
      exact hfree.1
  unfold arqPut
  split
  · have := lwpQueueAppendI_rep (q := .lo) h rfl hf
    rw [arqQs_lo] at this
    exact this
  · have := lwpQueueAppendI_rep (q := .hi) h rfl hf
    rw [arqQs_hi] at this
    exact this

omit [DecidableEq R] in
theorem arqPut_mem (prio : Nat) (his los : List R) (u : R) :
    (u ∈ (arqPut prio r his los).1 ↔ u ∈ his ∨ (u = r ∧ prio ≠ arqPrioLo)) ∧
      (u ∈ (arqPut prio r his los).2 ↔ u ∈ los ∨ (u = r ∧ prio = arqPrioLo)) := by
  unfold arqPut
  split
  · rename_i hp
    simp [hp]
  · rename_i hp
    simp [hp]

/-- The state a posting leaves before it looks at the engine. -/
def arqPosted (s : ArqSys R) (r : R) (owner dir prio aramAddr mramAddr len : Nat) (cb : Option ArqCallback) : ArqSys R :=
  let s := (s.setReq r fun _ => (⟨owner, dir, prio, .ready, aramAddr, mramAddr, len, cb.getD .dummy⟩ : ArqRequest)).record r
    ⟨prio, dir, aramAddr, mramAddr, len⟩
  { s with links := lwpQueueAppendI s.links (if prio = arqPrioLo then .lo else .hi) r }

theorem arqPostRequestAsync_eq (s : ArqSys R) (r : R) (owner dir prio aramAddr mramAddr len : Nat) (cb : Option ArqCallback) :
    arqPostRequestAsync s r owner dir prio aramAddr mramAddr len cb =
      if s.pendingLo = none ∧ s.pendingHi = none then arqNextDMA (arqPosted s r owner dir prio aramAddr mramAddr len cb)
      else arqPosted s r owner dir prio aramAddr mramAddr len cb := rfl

theorem ArqInv.posted (h : ArqInv s his los) (hw : s.waiting r = false) (owner dir prio aramAddr mramAddr len : Nat)
    (cb : Option ArqCallback) : ArqLists (arqPosted s r owner dir prio aramAddr mramAddr len cb) (arqPut prio r his los).1
      (arqPut prio r his los).2 := by
  have hfree : r ∉ his ∧ r ∉ los := by
    rw [h.hi r, h.lo r, hw]
    simp
  obtain ⟨s', hs'⟩ : ∃ s', s' = arqPosted s r owner dir prio aramAddr mramAddr len cb := ⟨_, rfl⟩
  have hwait : ∀ u, s'.waiting u = Function.update s.waiting r true u := fun u => by rw [hs']; rfl
  have hdrop : ∀ u, s'.dropped u = Function.update s.dropped r false u := fun u => by rw [hs']; rfl
  have hreq : ∀ u, u ≠ r → s'.req u = s.req u := fun u hu => by
    rw [hs']
    exact Function.update_of_ne hu ..
  have hself : (s'.req r).prio = prio := by
    rw [hs']
    show (Function.update s.req r _ r).prio = prio
    rw [Function.update_self]
  rw [← hs']
  refine ⟨by rw [hs']; exact arqPut_rep h.rep hfree prio, fun u => ?_, fun u => ?_, fun u hu => ?_, fun u hu hc => ?_, ?_⟩
  · rw [(arqPut_mem prio his los u).1, hwait u]
    by_cases hur : u = r
    · subst hur
      rw [Function.update_self, hself]
      simp [hfree.1]
    · rw [Function.update_of_ne hur, hreq u hur, h.hi u]
      simp [hur]
  · rw [(arqPut_mem prio his los u).2, hwait u]
    by_cases hur : u = r
    · subst hur
      rw [Function.update_self, hself]
      simp [hfree.2]
    · rw [Function.update_of_ne hur, hreq u hur, h.lo u]
      simp [hur]
  · rw [hdrop u]
    rw [hwait u] at hu
    by_cases hur : u = r
    · rw [hur, Function.update_self]
    · rw [Function.update_of_ne hur] at hu ⊢
      exact h.kept u hu
  · rw [hdrop u]
    rw [hs'] at hu hc
    by_cases hur : u = r
    · rw [hur, Function.update_self]
    · rw [Function.update_of_ne hur]
      exact h.going u hu hc
  · rw [hs']
    exact h.log

theorem ArqInv.postedBusy (h : ArqInv s his los) (hg : arqGuard s (.post r owner dir prio aramAddr mramAddr len cb))
    (hp : ¬ (s.pendingLo = none ∧ s.pendingHi = none)) :
    ArqInv (arqPosted s r owner dir prio aramAddr mramAddr len cb) (arqPut prio r his los).1 (arqPut prio r his los).2 := by
  obtain ⟨-, -, -, -, hw, hhi, hlo⟩ := hg
  have hwait : ∀ u, (arqPosted s r owner dir prio aramAddr mramAddr len cb).waiting u = true → u = r ∨ s.waiting u = true := by
    intro u hu
    have hu' : Function.update s.waiting r true u = true := hu
    by_cases hur : u = r
    · exact .inl hur
    · rw [Function.update_of_ne hur] at hu'
      exact .inr hu'
  refine ⟨h.posted hw owner dir prio aramAddr mramAddr len cb, fun u hu hwu => ?_, fun u hu hwu => ?_, ?_⟩
  · rcases hwait u hwu with rfl | hwu
    · exact hhi hu
    · exact h.hiOut u hu hwu
  · rcases hwait u hwu with rfl | hwu
    · exact hlo hu
    · exact h.loOut u hu hwu
  · have hph := h.phase
    unfold ArqPhase at hph ⊢
    show match s.inCallback with | none => _ | some .hi => _ | some .lo => _
    split at hph
    · obtain ⟨h1, h2, h3, -⟩ := hph
      exact ⟨h1, h2, h3, fun h4 h5 _ => absurd ⟨h5, h4⟩ hp⟩
    · exact hph
    · exact hph

theorem ArqInv.postedIdle (h : ArqInv s his los) (hg : arqGuard s (.post r owner dir prio aramAddr mramAddr len cb))
    (hp : s.pendingLo = none ∧ s.pendingHi = none) (hb : s.busy = 0) :
    ArqReady (arqPosted s r owner dir prio aramAddr mramAddr len cb) (arqPut prio r his los).1 (arqPut prio r his los).2 := by
  refine ⟨h.posted hg.2.2.2.2.1 owner dir prio aramAddr mramAddr len cb, fun u hu => ?_, h.idle_of_none hp.1 hp.2 hb⟩
  have hu' : s.pendingLo = some u := hu
  rw [hp.1] at hu'
  cases hu'

theorem ArqInv.post (h : ArqInv s his los) (hg : arqGuard s (.post r owner dir prio aramAddr mramAddr len cb))
    (hfree : s.pendingLo = none → s.pendingHi = none → s.busy = 0) :
    ∃ his' los', ArqInv (arqPostRequestAsync s r owner dir prio aramAddr mramAddr len cb) his' los' := by
  rw [arqPostRequestAsync_eq]
  split
  · rename_i hp
    exact (h.postedIdle hg hp (hfree hp.1 hp.2)).next
  · rename_i hp
    exact ⟨_, _, h.postedBusy hg hp⟩

/-! ## The interrupt -/

/-- The state a callback runs in. -/
def arqFinished (s : ArqSys R) (q : ArqQ) (r : R) : ArqSys R :=
  { s.setReq r (.setState .finished) with busy := s.busy - 1, called := s.called ++ [s.post r], inCallback := some q }

theorem arqComplete_hi {c : ArqCallback} (hc : s.callbackHi = some c) (hp : s.pendingHi = some r) :
    arqComplete s = arqFinished s .hi r := by
  cases s
  cases hc
  cases hp
  rfl

theorem arqComplete_lo {c : ArqCallback} (hch : s.callbackHi = none) (hc : s.callbackLo = some c) (hp : s.pendingLo = some r) :
    arqComplete s = arqFinished s .lo r := by
  cases s
  cases hch
  cases hc
  cases hp
  rfl

theorem arqComplete_chunk (hch : s.callbackHi = none) (hc : s.callbackLo = none) :
    arqComplete s = arqNextDMA { s with busy := s.busy - 1 } := by
  cases s
  cases hch
  cases hc
  rfl

/-- **What the interrupt finds**: a request of high priority done, one of low priority done, or a chunk of one that goes on. -/
inductive ArqComplete (s : ArqSys R) : ArqSys R → Prop where
  | hi {r : R} (hp : s.pendingHi = some r) (hlo : s.callbackLo = none) : ArqComplete s (arqFinished s .hi r)
  | lo {r : R} (hp : s.pendingLo = some r) (hc : s.callbackLo.isSome) (hhi : s.pendingHi = none) (hch : s.callbackHi = none) :
    ArqComplete s (arqFinished s .lo r)
  | chunk (hhi : s.pendingHi = none) (hch : s.callbackHi = none) (hc : s.callbackLo = none) :
    ArqComplete s (arqNextDMA { s with busy := s.busy - 1 })

theorem ArqPhase.complete (hp : ArqPhase s his los) (hcb : s.inCallback = none) :
    (s.callbackHi.isSome ↔ s.pendingHi.isSome) ∧ s.busy ≤ 1 ∧ ArqComplete s (arqComplete s) := by
  unfold ArqPhase at hp
  rw [hcb] at hp
  obtain ⟨h1, h2, h3, -⟩ := hp
  have hbusy : s.busy ≤ 1 := by
    split at h3
    · exact h3.le
    · exact h3
  refine ⟨h1, hbusy, ?_⟩
  cases hch : s.callbackHi with
  | some c =>
    obtain ⟨r, hr⟩ : ∃ r, s.pendingHi = some r := Option.isSome_iff_exists.1 (h1.1 (by rw [hch]; rfl))
    rw [arqComplete_hi hch hr]
    refine .hi hr ?_
    cases hcl : s.callbackLo with
    | none => rfl
    | some c =>
      have := (h2 (by rw [hcl]; rfl)).2
      rw [hr] at this
      cases this
  | none =>
    have hph : s.pendingHi = none := by
      cases hp : s.pendingHi with
      | none => rfl
      | some r =>
        have := h1.2 (by rw [hp]; rfl)
        rw [hch] at this
        cases this
    cases hcl : s.callbackLo with
    | some c =>
      obtain ⟨r, hr⟩ : ∃ r, s.pendingLo = some r := Option.isSome_iff_exists.1 (h2 (by rw [hcl]; rfl)).1
      rw [arqComplete_lo hch hcl hr]
      exact .lo hr (by rw [hcl]; rfl) hph hch
    | none =>
      rw [arqComplete_chunk hch hcl]
      exact .chunk hph hch hcl

theorem ArqLists.finished (h : ArqLists s his los) (q : ArqQ) (r : R) : ArqLists (arqFinished s q r) his los := by
  have hprio : ∀ u, ((arqFinished s q r).req u).prio = (s.req u).prio := fun u => setReq_prio _ r rfl u
  refine ⟨h.rep, fun u => ?_, fun u => ?_, h.kept, h.going, h.log⟩
  · rw [hprio u]
    exact h.hi u
  · rw [hprio u]
    exact h.lo u

omit [DecidableEq R] in
theorem ArqInv.out (h : ArqInv s his los) (hcb : s.inCallback = none) (hr : s.pendingHi = some r ∨ s.pendingLo = some r) :
    s.waiting r = false := by
  by_contra hw
  rw [Bool.not_eq_false] at hw
  rcases hr with hr | hr
  · have := h.hiOut r hr hw
    rw [hcb] at this
    cases this
  · have := h.loOut r hr hw
    rw [hcb] at this
    cases this

theorem ArqInv.finishHi (h : ArqInv s his los) (hcb : s.inCallback = none) (hp : s.pendingHi = some r) (hlo : s.callbackLo = none) :
    ArqInv (arqFinished s .hi r) his los := by
  obtain ⟨h1, h2, -⟩ := h.phase.complete hcb
  refine ⟨h.toArqLists.finished .hi r, fun _ _ _ => rfl, fun u hu hw => ?_, ?_⟩
  · exact absurd hw (by rw [Bool.not_eq_true]; exact h.out hcb (.inr hu))
  · show s.busy - 1 = 0 ∧ s.pendingHi.isSome ∧ s.callbackHi.isSome ∧ s.callbackLo = none
    have hp' : s.pendingHi.isSome := by rw [hp]; rfl
    exact ⟨by omega, hp', h1.2 hp', hlo⟩

theorem ArqInv.finishLo (h : ArqInv s his los) (hcb : s.inCallback = none) (hp : s.pendingLo = some r) (hc : s.callbackLo.isSome)
    (hhi : s.pendingHi = none) (hch : s.callbackHi = none) : ArqInv (arqFinished s .lo r) his los := by
  obtain ⟨-, h2, -⟩ := h.phase.complete hcb
  refine ⟨h.toArqLists.finished .lo r, fun u hu hw => ?_, fun _ _ _ => rfl, ?_⟩
  · exact absurd hw (by rw [Bool.not_eq_true]; exact h.out hcb (.inl hu))
  · show s.busy - 1 = 0 ∧ s.pendingLo.isSome ∧ s.callbackLo.isSome ∧ s.pendingHi = none ∧ s.callbackHi = none
    exact ⟨by omega, by rw [hp]; rfl, hc, hhi, hch⟩

theorem ArqInv.chunkDone (h : ArqInv s his los) (hcb : s.inCallback = none) (hhi : s.pendingHi = none) (hch : s.callbackHi = none)
    (hc : s.callbackLo = none) : ArqReady { s with busy := s.busy - 1 } his los := by
  obtain ⟨-, h2, -⟩ := h.phase.complete hcb
  refine ⟨⟨h.rep, h.hi, h.lo, h.kept, h.going, h.log⟩, fun r hr => h.out hcb (.inr hr), hcb, ?_, hhi, hch, hc⟩
  show s.busy - 1 = 0
  omega

theorem ArqInv.complete (h : ArqInv s his los) (hcb : s.inCallback = none) : ∃ his' los', ArqInv (arqComplete s) his' los' := by
  obtain ⟨-, -, hc⟩ := h.phase.complete hcb
  generalize arqComplete s = s' at hc
  cases hc with
  | hi hp hlo => exact ⟨his, los, h.finishHi hcb hp hlo⟩
  | lo hp hc hhi hch => exact ⟨his, los, h.finishLo hcb hp hc hhi hch⟩
  | chunk hhi hch hc => exact (h.chunkDone hcb hhi hch hc).next

omit [DecidableEq R] in
theorem ArqInv.resumeHi (h : ArqInv s his los) (hcb : s.inCallback = some .hi) :
    ArqReady { s with pendingHi := none, callbackHi := none, inCallback := none } his los := by
  have hp := h.phase
  unfold ArqPhase at hp
  rw [hcb] at hp
  refine ⟨⟨h.rep, h.hi, h.lo, h.kept, h.going, h.log⟩, fun r hr => ?_, rfl, hp.1, rfl, rfl, hp.2.2.2⟩
  by_contra hw
  have := h.loOut r hr (by simpa using hw)
  rw [hcb] at this
  cases this

omit [DecidableEq R] in
theorem ArqInv.resumeLo (h : ArqInv s his los) (hcb : s.inCallback = some .lo) :
    ArqReady { s with pendingLo := none, callbackLo := none, inCallback := none } his los := by
  have hp := h.phase
  unfold ArqPhase at hp
  rw [hcb] at hp
  exact ⟨⟨h.rep, h.hi, h.lo, h.kept, (fun _ hr => by cases hr), h.log⟩, (fun _ hr => by cases hr), rfl, hp.1, hp.2.2.2.1,
    hp.2.2.2.2, rfl⟩

theorem ArqInv.resume (h : ArqInv s his los) : ∃ his' los', ArqInv (arqResume s) his' los' := by
  unfold arqResume
  split
  · rename_i hcb
    exact (h.resumeHi hcb).next
  · rename_i hcb
    exact (h.resumeLo hcb).next
  · exact ⟨his, los, h⟩

/-! ## Cancellation -/

/-- A word of the queues: of a header, or of a request that waits. -/
def ArqSys.owns (s : ArqSys R) : Cell ArqQ R → Bool
  | .next r => s.waiting r
  | .prev r => s.waiting r
  | .wild => false
  | _ => true

/-- The neighbours a request names are still linked to each other, as far as they are on a queue. -/
def ArqSys.joined (s : ArqSys R) (r : R) : Prop :=
  (s.owns (s.links (.next r)).prevCell = true → s.links (s.links (.next r)).prevCell = s.links (.prev r)) ∧
    (s.owns (s.links (.prev r)).nextCell = true → s.links (s.links (.prev r)).nextCell = s.links (.next r))

/-- **A cancellation takes nothing from under the engine**: it removes a request that is queued, or one whose old neighbours are joined
already; the owner whose requests are removed has none between two chunks; and after a request in flight was removed nothing is posted
until its interrupt. -/
def arqCancelOk (s : ArqSys R) : ArqEvent R → Prop
  | .post .. => s.pendingLo = none → s.pendingHi = none → s.busy = 0
  | .remove r => s.waiting r = true ∨ s.joined r
  | .removeOwner owner => s.callbackLo = none → s.pendingLo.all fun r => (s.req r).owner ≠ owner
  | _ => True

instance (s : ArqSys R) : ∀ e, Decidable (arqCancelOk s e)
  | .post .. => inferInstanceAs (Decidable (_ → _ → _))
  | .remove _ => inferInstanceAs (Decidable (_ ∨ (_ ∧ _)))
  | .removeOwner _ => inferInstanceAs (Decidable (_ → _))
  | .complete => inferInstanceAs (Decidable True)
  | .resume => inferInstanceAs (Decidable True)
  | .flush => inferInstanceAs (Decidable True)

omit [DecidableEq R] in
theorem arqQs_cases {q : ArqQ} {xs : List R} (h : arqQs his los q = some xs) : (q = .hi ∧ xs = his) ∨ (q = .lo ∧ xs = los) := by
  cases q with
  | hi => exact .inl ⟨rfl, (Option.some.inj h).symm⟩
  | lo => exact .inr ⟨rfl, (Option.some.inj h).symm⟩

theorem ArqLists.extract_joined (h : ArqLists s his los) (hj : s.joined r) : Rep (lwpQueueExtractI s.links r) (arqQs his los) := by
  obtain ⟨hp, hn⟩ := hj
  have hsame : ∀ c, s.owns c = true → lwpQueueExtractI s.links r c = s.links c := by
    intro c hc
    unfold lwpQueueExtractI
    show Function.update (Function.update s.links _ _) _ _ c = s.links c
    by_cases h1 : c = (s.links (.prev r)).nextCell
    · rw [h1, Function.update_self]
      rw [h1] at hc
      exact (hn hc).symm
    · rw [Function.update_of_ne h1]
      by_cases h2 : c = (s.links (.next r)).prevCell
      · rw [h2, Function.update_self]
        rw [h2] at hc
        exact (hp hc).symm
      · rw [Function.update_of_ne h2]
  refine h.rep.frame (fun q => ⟨hsame _ rfl, hsame _ rfl, hsame _ rfl⟩) fun q xs n hq hn => ?_
  have hw : s.waiting n = true := by
    rcases arqQs_cases hq with ⟨-, rfl⟩ | ⟨-, rfl⟩
    · exact ((h.hi n).1 hn).1
    · exact ((h.lo n).1 hn).1
  exact ⟨hsame _ hw, hsame _ hw⟩

theorem ArqLists.extract (h : ArqLists s his los) (hw : s.waiting r = true) :
    Rep (lwpQueueExtractI s.links r) (arqQs (his.filter (· ≠ r)) (los.filter (· ≠ r))) := by
  have hsplit : ∀ {l₁ l₂ : List R}, (l₁ ++ r :: l₂).Nodup → (l₁ ++ r :: l₂).filter (· ≠ r) = l₁ ++ l₂ := by
    intro l₁ l₂ hnd
    rw [List.nodup_middle, List.nodup_cons] at hnd
    rw [List.filter_append, List.filter_cons_of_neg (by simp), ← List.filter_append]
    refine List.filter_eq_self.2 fun u hu => ?_
    rw [decide_eq_true_eq]
    rintro rfl
    exact hnd.1 hu
  have hother : ∀ {l : List R}, r ∉ l → l.filter (· ≠ r) = l := by
    intro l hl
    refine List.filter_eq_self.2 fun u hu => ?_
    rw [decide_eq_true_eq]
    rintro rfl
    exact hl hu
  by_cases hp : (s.req r).prio = arqPrioLo
  · obtain ⟨l₁, l₂, rfl⟩ := List.append_of_mem ((h.lo r).2 ⟨hw, hp⟩)
    have hrep := lwpQueueExtractI_rep (q := .lo) h.rep rfl
    rw [arqQs_lo] at hrep
    rw [hsplit (h.rep.nodup (q := .lo) rfl), hother fun hr => ((h.hi r).1 hr).2 hp]
    exact hrep
  · obtain ⟨l₁, l₂, rfl⟩ := List.append_of_mem ((h.hi r).2 ⟨hw, hp⟩)
    have hrep := lwpQueueExtractI_rep (q := .hi) h.rep rfl
    rw [arqQs_hi] at hrep
    rw [hsplit (h.rep.nodup (q := .hi) rfl), hother fun hr => hp ((h.lo r).1 hr).2]
    exact hrep

omit [DecidableEq R] in
/-- **The phase survives** a cancellation that takes requests off the queues and at most forgets the low request in progress. -/
theorem ArqPhase.cancel (hp : ArqPhase s his los) (hin : s'.inCallback = s.inCallback) (hhi : s'.pendingHi = s.pendingHi)
    (hchi : s'.callbackHi = s.callbackHi) (hclo : s'.callbackLo = s.callbackLo) (hbusy : s'.busy = s.busy)
    (hlo : s'.pendingLo = s.pendingLo ∨ (s'.pendingLo = none ∧ s.callbackLo = none))
    (hsub : (his = [] → his' = []) ∧ (los = [] → los' = [])) : ArqPhase s' his' los' := by
  unfold ArqPhase at hp ⊢
  rw [hin, hhi, hchi, hclo, hbusy]
  split at hp
  · obtain ⟨h1, h2, h3, h4⟩ := hp
    refine ⟨h1, fun hc => ?_, ?_, fun h5 _ h7 => ?_⟩
    · rcases hlo with he | ⟨-, hn⟩
      · rw [he]
        exact h2 hc
      · rw [hn] at hc
        cases hc
    · have hle : s.busy ≤ 1 := by
        split at h3
        · exact h3.le
        · exact h3
      rcases hlo with he | ⟨hn, -⟩
      · rw [he]
        exact h3
      · rw [hn]
        split
        · rename_i h5
          rw [if_pos (.inl (by simpa using h5))] at h3
          exact h3
        · exact hle
    · cases hpl : s.pendingLo with
      | none =>
        obtain ⟨h8, h9⟩ := h4 h5 hpl h7
        exact ⟨hsub.1 h8, hsub.2 h9⟩
      | some r =>
        rw [if_pos (.inr (by rw [hpl]; rfl)), h7] at h3
        cases h3
  · exact hp
  · obtain ⟨h1, h2, h3, h4⟩ := hp
    refine ⟨h1, ?_, h3, h4⟩
    rcases hlo with he | ⟨-, hn⟩
    · rw [he]
      exact h2
    · rw [hn] at h3
      cases h3

omit [DecidableEq R] in
/-- **Requests are taken off**: those `p` holds of are no longer on their queues, and count as removed. -/
theorem ArqInv.cancel (h : ArqInv s his los) {p : R → Bool} (hrep : Rep s'.links (arqQs (his.filter (!p ·)) (los.filter (!p ·))))
    (hreq : s'.req = s.req) (hlog : s'.log = s.log) (hw : ∀ r, s'.waiting r = (s.waiting r && !p r))
    (hd : ∀ r, s'.dropped r = (s.dropped r || p r)) (hin : s'.inCallback = s.inCallback) (hhi : s'.pendingHi = s.pendingHi)
    (hchi : s'.callbackHi = s.callbackHi) (hclo : s'.callbackLo = s.callbackLo) (hbusy : s'.busy = s.busy)
    (hlo : s'.pendingLo = s.pendingLo ∨ (s'.pendingLo = none ∧ s.callbackLo = none))
    (hgoing : ∀ r, s'.pendingLo = some r → s.callbackLo = none → p r = false) : ArqInv s' (his.filter (!p ·)) (los.filter (!p ·)) := by
  have hpl : ∀ r, s'.pendingLo = some r → s.pendingLo = some r := by
    intro r hr
    rcases hlo with he | ⟨hn, -⟩
    · rw [← he]
      exact hr
    · rw [hn] at hr
      cases hr
  have hwait : ∀ r, s'.waiting r = true → s.waiting r = true ∧ p r = false := by
    intro r hr
    rw [hw r] at hr
    simpa using hr
  have hlists : ArqLists s' (his.filter (!p ·)) (los.filter (!p ·)) := by
    refine ⟨hrep, fun r => ?_, fun r => ?_, fun r hr => ?_, fun r hr hc => ?_, by rw [hlog]; exact h.log⟩
    · rw [List.mem_filter, h.hi r, hw r, hreq, Bool.and_eq_true]
      tauto
    · rw [List.mem_filter, h.lo r, hw r, hreq, Bool.and_eq_true]
      tauto
    · rw [hd r, h.kept r (hwait r hr).1, (hwait r hr).2]
      rfl
    · rw [hclo] at hc
      rw [hd r, h.going r (hpl r hr) hc, hgoing r hr hc]
      rfl
  refine ⟨hlists, fun r hr hr' => ?_, fun r hr hr' => ?_, ?_⟩
  · rw [hhi] at hr
    rw [hin]
    exact h.hiOut r hr (hwait r hr').1
  · rw [hin]
    exact h.loOut r (hpl r hr) (hwait r hr').1
  · refine h.phase.cancel hin hhi hchi hclo hbusy hlo ⟨fun he => ?_, fun he => ?_⟩
    · rw [he]
      rfl
    · rw [he]
      rfl

theorem ArqInv.remove (h : ArqInv s his los) (hok : arqCancelOk s (.remove r)) : ∃ his' los', ArqInv (arqRemoveRequest s r) his' los' := by
  have hp : ∀ l : List R, l.filter (fun u => !decide (u = r)) = l.filter (· ≠ r) := by
    intro l
    refine List.filter_congr fun u _ => ?_
    simp
  refine ⟨_, _, h.cancel (p := fun u => u = r) ?_ rfl rfl (fun u => ?_) (fun u => ?_) rfl rfl rfl rfl rfl ?_ fun u hu hc => ?_⟩
  · rw [hp, hp]
    by_cases hw : s.waiting r = true
    · exact h.toArqLists.extract hw
    · have hj := h.toArqLists.extract_joined (hok.resolve_left hw)
      have hother : ∀ l : List R, r ∉ l → l.filter (· ≠ r) = l := by
        intro l hl
        refine List.filter_eq_self.2 fun u hu => ?_
        rw [decide_eq_true_eq]
        rintro rfl
        exact hl hu
      rw [hother his fun hr => hw ((h.hi r).1 hr).1, hother los fun hr => hw ((h.lo r).1 hr).1]
      exact hj
  · show Function.update s.waiting r false u = _
    by_cases hu : u = r
    · rw [hu, Function.update_self]
      simp
    · rw [Function.update_of_ne hu]
      simp [hu]
  · show Function.update s.dropped r true u = _
    by_cases hu : u = r
    · rw [hu, Function.update_self]
      simp
    · rw [Function.update_of_ne hu]
      simp [hu]
  · show (if _ then _ else _) = _ ∨ (if _ then _ else _) = _ ∧ _
    split
    · rename_i hc
      exact .inr ⟨rfl, hc.2⟩
    · exact .inl rfl
  · have hu' : (if s.pendingLo = some r ∧ s.callbackLo = none then none else s.pendingLo) = some u := hu
    split at hu'
    · cases hu'
    · rename_i hn
      rw [decide_eq_false_iff_not]
      rintro rfl
      exact hn ⟨hu', hc⟩

theorem ArqInv.flush (h : ArqInv s his los) : ∃ his' los', ArqInv (arqFlushQueue s) his' los' := by
  refine ⟨_, _, h.cancel (p := fun _ => true) ?_ rfl rfl (fun u => ?_) (fun u => ?_) rfl rfl rfl rfl rfl ?_ fun u hu hc => ?_⟩
  · have hrep := lwpQueueInitEmpty_rep (lwpQueueInitEmpty_rep h.rep .lo) .hi
    rw [arqQs_lo, arqQs_hi] at hrep
    have hnil : ∀ l : List R, l.filter (fun _ => !true) = [] := fun l => by simp
    rw [hnil, hnil]
    exact hrep
  · simp [arqFlushQueue]
  · simp [arqFlushQueue]
  · show (if _ then _ else _) = _ ∨ (if _ then _ else _) = _ ∧ _
    split
    · rename_i hc
      exact .inr ⟨rfl, hc⟩
    · exact .inl rfl
  · have hu' : (if s.callbackLo = none then none else s.pendingLo) = some u := hu
    rw [if_pos hc] at hu'
    cases hu'

/-! ## `ARQ_RemoveOwnerRequest` -/

/-- **A loop of it** takes the owner's requests off the queue it walks and stops at its tail. -/
theorem arqRemoveOwned_rep {q : ArqQ} (req : R → ArqRequest) (owner : Nat) : ∀ {ys : List R} {pre : List R} {m : Mem ArqQ R}
    {Qs : ArqQ → Option (List R)} {fuel : Nat} (cnt : Nat), Rep m Qs → Qs q = some (pre ++ ys) → ys.length ≤ fuel →
      ∃ m', arqRemoveOwned req owner fuel m (firstOf ys (.tail q)) cnt =
          (m', .tail q, cnt + ys.countP fun r => (req r).owner = owner) ∧
        Rep m' (Function.update Qs q (some (pre ++ ys.filter fun r => (req r).owner ≠ owner)))
  | [], pre, m, Qs, fuel, _, h, hq, _ => by
    refine ⟨m, ?_, ?_⟩
    · cases fuel <;> rfl
    · rw [← Function.update_eq_self (f := Qs) q, hq] at h
      exact h
  | r :: ys, pre, m, Qs, fuel + 1, cnt, h, hq, hf => by
    have hf' : ys.length ≤ fuel := Nat.le_of_succ_le_succ hf
    show ∃ m', (if (req r).owner = owner then _ else _) = _ ∧ _
    by_cases ho : (req r).owner = owner
    · have hex := lwpQueueExtractI_rep h hq
      -- an extracted node keeps its own links
      have hnext : lwpQueueExtractI m r (.next r) = firstOf ys (.tail q) := by
        have hnd := h.nodup hq
        rw [List.nodup_middle, List.nodup_cons, List.mem_append, not_or] at hnd
        rw [← h.next_node hq]
        unfold lwpQueueExtractI
        show Function.update (Function.update m _ _) _ _ _ = _
        rw [h.next_node hq, h.prev_node hq, Function.update_of_ne (lastOf_nextCell_ne q hnd.1.1).symm,
          Function.update_of_ne (Link.prevCell_ne_next _ r).symm, h.next_node hq]
      obtain ⟨m', he, hr⟩ := arqRemoveOwned_rep req owner (cnt + 1) hex (by rw [Function.update_self]) hf'
      refine ⟨m', ?_, ?_⟩
      · rw [if_pos ho]
        dsimp only
        rw [hnext, he, List.countP_cons_of_pos (by simpa using ho)]
        congr 2
        omega
      · rw [Function.update_idem] at hr
        rw [List.filter_cons_of_neg (by simpa using ho)]
        exact hr
    · have hnext : m (.next r) = firstOf ys (.tail q) := h.next_node hq
      obtain ⟨m', he, hr⟩ := arqRemoveOwned_rep req owner cnt h
        (by rw [hq, ← List.singleton_append, ← List.append_assoc]) hf'
      refine ⟨m', ?_, ?_⟩
      · rw [if_neg ho, hnext, he, List.countP_cons_of_neg (by simpa using ho)]
      · rw [List.append_assoc] at hr
        rw [List.filter_cons_of_pos (by simpa using ho)]
        exact hr

section Owner
variable [Fintype R]

/-- The whole of it: the owner's requests leave both queues, and the last comparison, with a tail, finds no request. -/
theorem arqRemoveOwnerRequest_eq (h : Rep s.links (arqQs his los)) (owner : Nat) :
    ∃ m, arqRemoveOwnerRequest s owner = ({ s with
            links := m
            waiting := fun r => s.waiting r && (s.req r).owner ≠ owner
            dropped := fun r => s.dropped r || (s.req r).owner = owner },
          (his.countP fun r => (s.req r).owner = owner) + los.countP fun r => (s.req r).owner = owner) ∧
      Rep m (arqQs (his.filter fun r => (s.req r).owner ≠ owner) (los.filter fun r => (s.req r).owner ≠ owner)) := by
  obtain ⟨m₁, he₁, hr₁⟩ := arqRemoveOwned_rep (q := .hi) s.req owner 0 h (show _ = some ([] ++ his) from rfl)
    (h.nodup (q := .hi) rfl).length_le_card
  rw [arqQs_hi] at hr₁
  obtain ⟨m₂, he₂, hr₂⟩ := arqRemoveOwned_rep (q := .lo) s.req owner
    (0 + his.countP fun r => (s.req r).owner = owner) hr₁
    (show _ = some ([] ++ los) from rfl) (h.nodup (q := .lo) rfl).length_le_card
  rw [arqQs_lo] at hr₂
  rw [← h.next_head (q := .hi) rfl] at he₁
  rw [← hr₁.next_head (q := .lo) rfl] at he₂
  refine ⟨m₂, ?_, hr₂⟩
  simp only [arqRemoveOwnerRequest, he₁, he₂]
  rw [if_neg, Nat.zero_add]
  rintro ⟨hp, -⟩
  cases hl : s.pendingLo with
  | none =>
    rw [hl] at hp
    cases hp
  | some r =>
    rw [hl] at hp
    cases hp

/-- **`ARQ_RemoveOwnerRequest`**, of an owner with no request between two chunks. -/
theorem ArqInv.removeOwner (h : ArqInv s his los) {owner : Nat} (hok : arqCancelOk s (.removeOwner owner)) :
    ∃ his' los', ArqInv (arqRemoveOwnerRequest s owner).1 his' los' := by
  obtain ⟨m, he, hrep⟩ := arqRemoveOwnerRequest_eq h.rep owner
  have hp : ∀ l : List R, l.filter (fun u => !decide ((s.req u).owner = owner)) = l.filter fun u => (s.req u).owner ≠ owner := by
    intro l
    refine List.filter_congr fun u _ => ?_
    simp
  rw [he]
  refine ⟨_, _, h.cancel (p := fun u => (s.req u).owner = owner) ?_ rfl rfl (fun u => ?_) (fun u => rfl) rfl rfl rfl rfl rfl (.inl rfl)
    fun u hu hc => ?_⟩
  · rw [hp, hp]
    exact hrep
  · show (s.waiting u && decide ((s.req u).owner ≠ owner)) = _
    simp
  · have hu' : s.pendingLo = some u := hu
    have hall := hok hc
    rw [hu'] at hall
    simpa using hall

/-! ## Runs -/

omit [Fintype R] in
theorem arqStart_inv (links : Mem ArqQ R) (req : R → ArqRequest) (chunkSize : Nat) : ArqInv (arqStart links req chunkSize) [] [] := by
  have hrep := lwpQueueInitEmpty_rep (lwpQueueInitEmpty_rep (Rep.nothing links) .lo) .hi
  have hqs : Function.update (Function.update (fun _ : ArqQ => (none : Option (List R))) .lo (some [])) .hi (some []) = arqQs [] [] := by
    funext q
    cases q <;> rfl
  rw [hqs] at hrep
  refine ⟨⟨hrep, fun r => ?_, fun r => ?_, (fun _ hr => by cases hr), (fun _ hr => by cases hr), (fun _ hx => by cases hx)⟩,
    (fun _ hr => by cases hr), (fun _ hr => by cases hr), ?_⟩
  · exact ⟨(fun hr => by cases hr), (fun hr => by cases hr.1)⟩
  · exact ⟨(fun hr => by cases hr), (fun hr => by cases hr.1)⟩
  · exact ⟨Iff.rfl, (fun hc => by cases hc), by rw [if_neg (by simp [arqStart])]; exact Nat.zero_le 1, fun _ _ _ => ⟨rfl, rfl⟩⟩

theorem ArqInv.step (h : ArqInv s his los) {e : ArqEvent R} (he : (arqSystem.restrict arqCancelOk).enabled s e) :
    ∃ his' los', ArqInv (arqNext s e) his' los' := by
  obtain ⟨hg, hok⟩ := he
  cases e with
  | post r owner dir prio aramAddr mramAddr len cb => exact h.post hg hok
  | complete => exact h.complete hg.2
  | resume => exact h.resume
  | remove r => exact h.remove hok
  | removeOwner owner => exact h.removeOwner hok
  | flush => exact h.flush

theorem arq_run_inv {links : Mem ArqQ R} {req : R → ArqRequest} {chunkSize : Nat} {es : List (ArqEvent R)}
    (hl : (arqSystem.restrict arqCancelOk).Legal (arqStart links req chunkSize) es) :
    ∃ his los, ArqInv (arqSystem.run (arqStart links req chunkSize) es) his los := by
  obtain ⟨his, los, h⟩ := hl.invariant (I := fun s => ∃ his los, ArqInv s his los) (fun _ _ ⟨_, _, hs⟩ he => hs.step he)
    ⟨[], [], arqStart_inv links req chunkSize⟩
  exact ⟨his, los, h⟩

/-- **What the queue owes its users**: every DMA was started with the engine idle, and for a request that had not been removed; the two
queues are doubly linked lists of exactly the requests posted and neither started nor removed since, each once. -/
structure ArqSound (s : ArqSys R) (his los : List R) : Prop where
  log : ∀ x ∈ s.log, x.busy = 0 ∧ x.dropped = false
  linked : IsQueue s.links .hi his ∧ IsQueue s.links .lo los
  once : his.Nodup ∧ los.Nodup
  hi : ∀ r, r ∈ his ↔ s.waiting r = true ∧ (s.req r).prio ≠ arqPrioLo
  lo : ∀ r, r ∈ los ↔ s.waiting r = true ∧ (s.req r).prio = arqPrioLo

/-- **The queue under cancellation**, on every run whose cancellations take nothing from under the engine. -/
theorem arq_cancellation {links : Mem ArqQ R} {req : R → ArqRequest} {chunkSize : Nat} {es : List (ArqEvent R)}
    (hl : (arqSystem.restrict arqCancelOk).Legal (arqStart links req chunkSize) es) :
    ∃ his los, ArqSound (arqSystem.run (arqStart links req chunkSize) es) his los := by
  obtain ⟨his, los, h⟩ := arq_run_inv hl
  refine ⟨his, los, h.log, ⟨h.rep.linked rfl, h.rep.linked rfl⟩, ⟨?_, ?_⟩, h.hi, h.lo⟩
  · exact h.rep.nodup (q := .hi) rfl
  · exact h.rep.nodup (q := .lo) rfl

end Owner

end Inv

/-- A machine of three requests whose memory was cleared. -/
def arqThree : ArqSys (Fin 3) := arqStart (fun _ => .null) (fun _ => ⟨0, 0, 0, .ready, 0, 0, 0, .dummy⟩) 32

/-- A chunk in flight, another request removed from its queue, one removed between two chunks, and a flush. -/
theorem arq_cancellation_sample :
    ∃ his los, ArqSound (arqSystem.run arqThree
      [.post 0 1 0 0 0 0 64 none, .post 1 2 0 0 0 0 64 none, .post 2 2 0 1 0 0 32 none, .remove 1, .complete, .complete, .remove 0,
        .removeOwner 2, .resume, .post 1 2 0 0 0 0 32 none, .flush, .complete]) his los := by
  refine arq_cancellation ?_
  decide +kernel

/-- A flush while a chunk is in flight and a posting before its interrupt start a second DMA; a request between two chunks goes on after
its owner's requests were removed; removing a request in flight loses the one queued after it. -/
theorem arq_cancellation_fails :
    (∃ es, arqSystem.Legal arqThree es ∧ ∃ x ∈ (arqSystem.run arqThree es).log, x.busy = 1) ∧
      (∃ es, arqSystem.Legal arqThree es ∧ ∃ x ∈ (arqSystem.run arqThree es).log, x.dropped = true) ∧
      ∃ es, arqSystem.Legal arqThree es ∧ ¬ ∃ his los, ArqSound (arqSystem.run arqThree es) his los := by
  refine ⟨⟨[.post 0 0 0 0 0 0 64 none, .flush, .post 1 0 0 0 0 0 32 none], by decide +kernel, by decide +kernel⟩,
    ⟨[.post 0 7 0 0 0 0 64 none, .removeOwner 7, .complete], by decide +kernel, by decide +kernel⟩,
    ⟨[.post 0 0 0 1 0 0 32 none, .post 1 0 0 1 0 0 32 none, .remove 0], by decide +kernel, ?_⟩⟩
  obtain ⟨s, hs⟩ : ∃ s, s = arqSystem.run arqThree [.post 0 0 0 1 0 0 32 none, .post 1 0 0 1 0 0 32 none, .remove 0] := ⟨_, rfl⟩
  have hfirst : s.links (.first .hi) = .tail .hi := by rw [hs]; decide +kernel
  have hwait : s.waiting 1 = true ∧ (s.req 1).prio ≠ arqPrioLo := by rw [hs]; decide +kernel
  rw [← hs]
  rintro ⟨his, los, h⟩
  have hmem := (h.hi 1).2 hwait
  cases his with
  | nil => cases hmem
  | cons r t =>
    have := h.linked.1.1.1.1.symm.trans hfirst
    cases this

end Libogc
