import Libogc.Aram.ArqueueRuns
/-!
# ArqueueOwner — `ARQ_RemoveOwnerRequest`

`ArqQueued` is what the two lists need of a run, and no more: postings, flushes and removals of an owner all keep it, also those that take
a transfer from under the engine.  Only `ARQ_RemoveRequest` may not, when it unlinks a request that is on no queue.
-/
namespace Libogc

open Links Runs

section Owner
variable {R : Type} [DecidableEq R] {s s' : ArqSys R} {his los his' los' : List R} {r : R}

/-- **The queues hold exactly the waiting requests**, and a callback's own request is still pending. -/
structure ArqQueued (s : ArqSys R) (his los : List R) : Prop where
  rep : Rep s.links (arqQs his los)
  hi : ∀ r, r ∈ his ↔ s.waiting r = true ∧ (s.req r).prio ≠ arqPrioLo
  lo : ∀ r, r ∈ los ↔ s.waiting r = true ∧ (s.req r).prio = arqPrioLo
  both : s.callbackHi.isSome ↔ s.pendingHi.isSome
  hiOut : ∀ r, s.pendingHi = some r → s.waiting r = true → s.inCallback = some .hi
  loOut : ∀ r, s.pendingLo = some r → s.waiting r = true → s.inCallback = some .lo
  inHi : s.inCallback = some .hi → s.pendingHi.isSome
  inLo : s.inCallback = some .lo → s.pendingHi = none ∧ s.pendingLo.isSome ∧ s.callbackLo.isSome

/-- A state without its history. -/
def ArqSys.forget (s : ArqSys R) : ArqSys R := { s with dropped := fun _ => false, log := [] }

omit [DecidableEq R] in
theorem ArqQueued.forget (h : ArqQueued s his los) : ArqLists s.forget his los :=
  ⟨h.rep, h.hi, h.lo, fun _ _ => rfl, fun _ _ _ => rfl, fun _ hx => by cases hx⟩

/-! ## The next DMA -/

/-- **A DMA is started** for a request that was the head of a queue, or on none. -/
theorem ArqQueued.started (h : ArqQueued s his los) (hrep : Rep s'.links (arqQs his' los'))
    (hw : s'.waiting = Function.update s.waiting r false) (hprio : ∀ u, (s'.req u).prio = (s.req u).prio)
    (hhi : ∀ u, u ∈ his' ↔ u ∈ his ∧ u ≠ r) (hlo : ∀ u, u ∈ los' ↔ u ∈ los ∧ u ≠ r) (hin : s.inCallback = none)
    (hin' : s'.inCallback = none) (hboth : s'.callbackHi.isSome ↔ s'.pendingHi.isSome)
    (hphi : ∀ u, s'.pendingHi = some u → u = r ∨ s.pendingHi = some u)
    (hplo : ∀ u, s'.pendingLo = some u → u = r ∨ s.pendingLo = some u) : ArqQueued s' his' los' := by
  have hl : ArqLists s'.forget his' los' := by
    refine h.forget.started ?_ ?_ ?_ rfl hhi hlo (fun _ _ _ => rfl) fun _ hx => by (cases hx)
    · exact hrep
    · exact hw
    · exact hprio
  have hold : ∀ u, s'.waiting u = true → u ≠ r ∧ s.waiting u = true := by
    intro u hu
    rw [hw] at hu
    by_cases hur : u = r
    · rw [hur, Function.update_self] at hu
      cases hu
    · rw [Function.update_of_ne hur] at hu
      exact ⟨hur, hu⟩
  refine ⟨hl.rep, hl.hi, hl.lo, hboth, fun u hu hwu => ?_, fun u hu hwu => ?_, fun hc => ?_, fun hc => ?_⟩
  · obtain ⟨hne, hwu⟩ := hold u hwu
    have := h.hiOut u ((hphi u hu).resolve_left hne) hwu
    rw [hin] at this
    cases this
  · obtain ⟨hne, hwu⟩ := hold u hwu
    have := h.loOut u ((hplo u hu).resolve_left hne) hwu
    rw [hin] at this
    cases this
  · rw [hin'] at hc
    cases hc
  · rw [hin'] at hc
    cases hc

theorem arqServiceLo_keeps (s : ArqSys R) (r : R) : (arqServiceLo s r).links = s.links ∧
    (arqServiceLo s r).waiting = Function.update s.waiting r false ∧ (∀ u, ((arqServiceLo s r).req u).prio = (s.req u).prio) ∧
    (arqServiceLo s r).pendingLo = s.pendingLo ∧ (arqServiceLo s r).pendingHi = s.pendingHi ∧
    (arqServiceLo s r).callbackHi = s.callbackHi ∧ (arqServiceLo s r).inCallback = s.inCallback := by
  rw [arqServiceLo_eq]
  split
  · exact ⟨rfl, rfl, fun u => setReq_prio _ r rfl u, rfl, rfl, rfl, rfl⟩
  · refine ⟨rfl, rfl, fun u => ?_, rfl, rfl, rfl, rfl⟩
    rw [setReq_prio _ r rfl u]
    exact setReq_prio _ r rfl u

theorem ArqQueued.service (h : ArqQueued s [] los) (hin : s.inCallback = none) {m : Mem ArqQ R} (hm : Rep m (arqQs [] los'))
    (hlos : ∀ u, u ∈ los' ↔ u ∈ los ∧ u ≠ r) : ArqQueued (arqServiceLo { s with links := m, pendingLo := some r } r) [] los' := by
  obtain ⟨e1, e2, e3, e4, e5, e6, e7⟩ := arqServiceLo_keeps { s with links := m, pendingLo := some r } r
  refine h.started (r := r) (by rw [e1]; exact hm) e2 e3 (fun u => by simp) hlos hin (e7.trans hin) ?_ (fun u hu => ?_) fun u hu => ?_
  · rw [e5, e6]
    exact h.both
  · rw [e5] at hu
    exact .inr hu
  · rw [e4] at hu
    exact .inl (Option.some.inj hu).symm

omit [DecidableEq R] in
theorem mem_tail_iff {t : List R} (hnd : (r :: t).Nodup) (u : R) : u ∈ t ↔ u ∈ r :: t ∧ u ≠ r := by
  have hr := (List.nodup_cons.1 hnd).1
  constructor
  · exact fun hu => ⟨List.mem_cons_of_mem _ hu, fun he => hr (he ▸ hu)⟩
  · rintro ⟨hu, hne⟩
    exact (List.mem_cons.1 hu).resolve_left hne

theorem ArqQueued.next (h : ArqQueued s his los) (hin : s.inCallback = none) (hp : s.pendingHi = none) :
    ∃ his' los', ArqQueued (arqNextDMA s) his' los' := by
  obtain ⟨his', los', hn⟩ := arqNextDMA_cases h.rep hp
  refine ⟨his', los', ?_⟩
  generalize arqNextDMA s = s' at hn
  cases hn with
  | @hi r t los m hm =>
    have hr := (h.hi r).1 List.mem_cons_self
    refine h.started (r := r) hm rfl (fun u => setReq_prio _ r rfl u) (fun u => ?_) (fun u => ?_) hin hin ⟨fun _ => rfl, fun _ => rfl⟩
      (fun u hu => .inl (Option.some.inj hu).symm) fun u hu => .inr hu
    · exact mem_tail_iff (h.rep.nodup (q := .hi) rfl) u
    · refine ⟨fun hu => ⟨hu, ?_⟩, fun hu => hu.1⟩
      rintro rfl
      exact hr.2 ((h.lo _).1 hu).2
  | @going r los hp =>
    have hs : s = { s with links := s.links, pendingLo := some r } := by
      cases s
      cases hp
      rfl
    rw [hs]
    refine h.service hin h.rep fun u => ⟨fun hu => ⟨hu, ?_⟩, fun hu => hu.1⟩
    rintro rfl
    have := h.loOut _ hp ((h.lo _).1 hu).1
    rw [hin] at this
    cases this
  | lo hp hm => exact h.service hin hm fun u => mem_tail_iff (h.rep.nodup (q := .lo) rfl) u
  | none hp => exact h

/-! ## The events -/

variable {owner dir prio aramAddr mramAddr len : Nat} {cb : Option ArqCallback}

theorem ArqQueued.posted (h : ArqQueued s his los) (hg : arqGuard s (.post r owner dir prio aramAddr mramAddr len cb)) :
    ArqQueued (arqPosted s r owner dir prio aramAddr mramAddr len cb) (arqPut prio r his los).1 (arqPut prio r his los).2 := by
  obtain ⟨-, -, -, -, hw, hphi, hplo⟩ := hg
  have hfree : r ∉ his ∧ r ∉ los := by
    rw [h.hi r, h.lo r, hw]
    simp
  obtain ⟨s', hs'⟩ : ∃ s', s' = arqPosted s r owner dir prio aramAddr mramAddr len cb := ⟨_, rfl⟩
  have hwait : ∀ u, s'.waiting u = Function.update s.waiting r true u := fun u => by rw [hs']; rfl
  have hreq : ∀ u, u ≠ r → s'.req u = s.req u := fun u hu => by
    rw [hs']
    exact Function.update_of_ne hu ..
  have hself : (s'.req r).prio = prio := by
    rw [hs']
    show (Function.update s.req r _ r).prio = prio
    rw [Function.update_self]
  have hold : ∀ u, u ≠ r → s'.waiting u = true → s.waiting u = true := by
    intro u hur hu
    rw [hwait, Function.update_of_ne hur] at hu
    exact hu
  have hfields : s'.pendingHi = s.pendingHi ∧ s'.pendingLo = s.pendingLo ∧ s'.inCallback = s.inCallback ∧
      s'.callbackHi = s.callbackHi ∧ s'.callbackLo = s.callbackLo := by
    rw [hs']
    exact ⟨rfl, rfl, rfl, rfl, rfl⟩
  obtain ⟨e1, e2, e3, e4, e5⟩ := hfields
  rw [← hs']
  refine ⟨by rw [hs']; exact arqPut_rep h.rep hfree prio, fun u => ?_, fun u => ?_, by rw [e1, e4]; exact h.both, fun u hu hwu => ?_,
    fun u hu hwu => ?_, by rw [e1, e3]; exact h.inHi, by rw [e1, e2, e3, e5]; exact h.inLo⟩
  · rw [(arqPut_mem prio his los u).1, hwait u]
    by_cases hur : u = r
    · subst hur
      rw [Function.update_self, hself]
      simp [hfree.1]
    · rw [Function.update_of_ne hur, hreq u hur, h.hi u]
      simp [hur]
  · rw [(arqPut_mem prio his los u).2, hwait u]
    by_cases hur : u = r
    · subst hur
      rw [Function.update_self, hself]
      simp [hfree.2]
    · rw [Function.update_of_ne hur, hreq u hur, h.lo u]
      simp [hur]
  · rw [e1] at hu
    rw [e3]
    by_cases hur : u = r
    · exact hphi (hur ▸ hu)
    · exact h.hiOut u hu (hold u hur hwu)
  · rw [e2] at hu
    rw [e3]
    by_cases hur : u = r
    · exact hplo (hur ▸ hu)
    · exact h.loOut u hu (hold u hur hwu)

theorem ArqQueued.post (h : ArqQueued s his los) (hg : arqGuard s (.post r owner dir prio aramAddr mramAddr len cb)) :
    ∃ his' los', ArqQueued (arqPostRequestAsync s r owner dir prio aramAddr mramAddr len cb) his' los' := by
  have hq := h.posted hg
  rw [arqPostRequestAsync_eq]
  split
  · rename_i hp
    refine hq.next ?_ hp.2
    -- a callback's request is pending while the callback runs
    show s.inCallback = none
    cases hc : s.inCallback with
    | none => rfl
    | some q =>
      cases q with
      | hi =>
        have := h.inHi hc
        rw [hp.2] at this
        cases this
      | lo =>
        have := (h.inLo hc).2.1
        rw [hp.1] at this
        cases this
  · exact ⟨_, _, hq⟩

theorem ArqQueued.finished (h : ArqQueued s his los) (hin : s.inCallback = none) (q : ArqQ)
    (hhi : q = .hi → s.pendingHi.isSome) (hlo : q = .lo → s.pendingHi = none ∧ s.pendingLo.isSome ∧ s.callbackLo.isSome) :
    ArqQueued (arqFinished s q r) his los := by
  have hprio : ∀ u, ((arqFinished s q r).req u).prio = (s.req u).prio := fun u => setReq_prio _ r rfl u
  refine ⟨h.rep, fun u => by rw [hprio u]; exact h.hi u, fun u => by rw [hprio u]; exact h.lo u, h.both, fun u hu hw => ?_,
    fun u hu hw => ?_, fun hc => hhi (Option.some.inj hc), fun hc => hlo (Option.some.inj hc)⟩
  · have := h.hiOut u hu hw
    rw [hin] at this
    cases this
  · have := h.loOut u hu hw
    rw [hin] at this
    cases this

theorem ArqQueued.complete (h : ArqQueued s his los) (hin : s.inCallback = none) : ∃ his' los', ArqQueued (arqComplete s) his' los' := by
  have hidle : ArqQueued { s with busy := s.busy - 1 } his los := ⟨h.rep, h.hi, h.lo, h.both, h.hiOut, h.loOut, h.inHi, h.inLo⟩
  cases hch : s.callbackHi with
  | some c =>
    obtain ⟨r, hr⟩ := Option.isSome_iff_exists.1 (h.both.1 (by rw [hch]; rfl))
    rw [arqComplete_hi hch hr]
    exact ⟨his, los, h.finished hin .hi (fun _ => by rw [hr]; rfl) fun hc => by cases hc⟩
  | none =>
    have hph : s.pendingHi = none := by
      rw [← Option.not_isSome_iff_eq_none, ← h.both, hch]
      simp
    cases hcl : s.callbackLo with
    | none =>
      rw [arqComplete_chunk hch hcl]
      exact hidle.next hin hph
    | some c =>
      cases hpl : s.pendingLo with
      | some r =>
        rw [arqComplete_lo hch hcl hpl]
        exact ⟨his, los, h.finished hin .lo (fun hc => by cases hc) fun _ => ⟨hph, by rw [hpl]; rfl, by rw [hcl]; rfl⟩⟩
      | none =>
        have he : arqComplete s = arqNextDMA { s with busy := s.busy - 1 } := by
          cases s
          cases hch
          cases hcl
          cases hpl
          rfl
        rw [he]
        exact hidle.next hin hph

theorem ArqQueued.resume (h : ArqQueued s his los) : ∃ his' los', ArqQueued (arqResume s) his' los' := by
  unfold arqResume
  split
  · rename_i hc
    have hback : ArqQueued { s with pendingHi := none, callbackHi := none, inCallback := none } his los := by
      refine ⟨h.rep, h.hi, h.lo, by simp, (fun _ hr => by cases hr), fun u hu hw => ?_, (fun hc => by cases hc), fun hc => by cases hc⟩
      have := h.loOut u hu hw
      rw [hc] at this
      cases this
    exact hback.next rfl rfl
  · rename_i hc
    obtain ⟨hph, -, -⟩ := h.inLo hc
    have hback : ArqQueued { s with pendingLo := none, callbackLo := none, inCallback := none } his los := by
      refine ⟨h.rep, h.hi, h.lo, h.both, fun u hu => ?_, (fun _ hr => by cases hr), (fun hc => by cases hc), fun hc => by cases hc⟩
      rw [show _ = s.pendingHi from rfl, hph] at hu
      cases hu
    exact hback.next rfl hph
  · exact ⟨his, los, h⟩

omit [DecidableEq R] in
theorem ArqQueued.cancel (h : ArqQueued s his los) {p : R → Bool}
    (hrep : Rep s'.links (arqQs (his.filter (!p ·)) (los.filter (!p ·)))) (hreq : s'.req = s.req)
    (hw : ∀ r, s'.waiting r = (s.waiting r && !p r)) (hin : s'.inCallback = s.inCallback) (hhi : s'.pendingHi = s.pendingHi)
    (hchi : s'.callbackHi = s.callbackHi) (hclo : s'.callbackLo = s.callbackLo)
    (hlo : s'.pendingLo = s.pendingLo ∨ (s'.pendingLo = none ∧ s.callbackLo = none)) :
    ArqQueued s' (his.filter (!p ·)) (los.filter (!p ·)) := by
  have hpl : ∀ r, s'.pendingLo = some r → s.pendingLo = some r := by
    intro r hr
    rcases hlo with he | ⟨hn, -⟩
    · rw [← he]
      exact hr
    · rw [hn] at hr
      cases hr
  have hwait : ∀ r, s'.waiting r = true → s.waiting r = true := by
    intro r hr
    rw [hw r, Bool.and_eq_true] at hr
    exact hr.1
  refine ⟨hrep, fun r => ?_, fun r => ?_, by rw [hchi, hhi]; exact h.both, fun r hr hr' => ?_, fun r hr hr' => ?_,
    by rw [hin, hhi]; exact h.inHi, fun hc => ?_⟩
  · rw [List.mem_filter, h.hi r, hw r, hreq, Bool.and_eq_true]
    tauto
  · rw [List.mem_filter, h.lo r, hw r, hreq, Bool.and_eq_true]
    tauto
  · rw [hhi] at hr
    rw [hin]
    exact h.hiOut r hr (hwait r hr')
  · rw [hin]
    exact h.loOut r (hpl r hr) (hwait r hr')
  · rw [hin] at hc
    obtain ⟨h1, h2, h3⟩ := h.inLo hc
    rw [hhi, hclo]
    refine ⟨h1, ?_, h3⟩
    rcases hlo with he | ⟨-, hn⟩
    · rw [he]
      exact h2
    · rw [hn] at h3
      cases h3

/-- A removal unlinks a request that is queued, or one whose old neighbours are joined already. -/
def arqUnlinks (s : ArqSys R) : ArqEvent R → Prop
  | .remove r => s.waiting r = true ∨ s.joined r
  | _ => True

instance (s : ArqSys R) : ∀ e, Decidable (arqUnlinks s e)
  | .remove _ => inferInstanceAs (Decidable (_ ∨ (_ ∧ _)))
  | .post .. => inferInstanceAs (Decidable True)
  | .removeOwner _ => inferInstanceAs (Decidable True)
  | .complete => inferInstanceAs (Decidable True)
  | .resume => inferInstanceAs (Decidable True)
  | .flush => inferInstanceAs (Decidable True)

theorem ArqQueued.remove (h : ArqQueued s his los) (hok : arqUnlinks s (.remove r)) :
    ∃ his' los', ArqQueued (arqRemoveRequest s r) his' los' := by
  have hp : ∀ l : List R, l.filter (fun u => !decide (u = r)) = l.filter (· ≠ r) := by
    intro l
    refine List.filter_congr fun u _ => ?_
    simp
  refine ⟨_, _, h.cancel (p := fun u => u = r) ?_ rfl (fun u => ?_) rfl rfl rfl rfl ?_⟩
  · rw [hp, hp]
    by_cases hw : s.waiting r = true
    · exact h.forget.extract hw
    · have hother : ∀ l : List R, r ∉ l → l.filter (· ≠ r) = l := by
        intro l hl
        refine List.filter_eq_self.2 fun u hu => ?_
        rw [decide_eq_true_eq]
        rintro rfl
        exact hl hu
      rw [hother his fun hr => hw ((h.hi r).1 hr).1, hother los fun hr => hw ((h.lo r).1 hr).1]
      exact h.forget.extract_joined (hok.resolve_left hw)
  · show Function.update s.waiting r false u = _
    by_cases hu : u = r
    · rw [hu, Function.update_self]
      simp
    · rw [Function.update_of_ne hu]
      simp [hu]
  · show (if _ then _ else _) = _ ∨ (if _ then _ else _) = _ ∧ _
    split
    · rename_i hc
      exact .inr ⟨rfl, hc.2⟩
    · exact .inl rfl

theorem ArqQueued.flush (h : ArqQueued s his los) : ∃ his' los', ArqQueued (arqFlushQueue s) his' los' := by
  refine ⟨_, _, h.cancel (p := fun _ => true) ?_ rfl (fun u => ?_) rfl rfl rfl rfl ?_⟩
  · have hrep := lwpQueueInitEmpty_rep (lwpQueueInitEmpty_rep h.rep .lo) .hi
    rw [arqQs_lo, arqQs_hi] at hrep
    have hnil : ∀ l : List R, l.filter (fun _ => !true) = [] := fun l => by simp
    rw [hnil, hnil]
    exact hrep
  · simp [arqFlushQueue]
  · show (if _ then _ else _) = _ ∨ (if _ then _ else _) = _ ∧ _
    split
    · rename_i hc
      exact .inr ⟨rfl, hc⟩
    · exact .inl rfl

section Runs
variable [Fintype R]

theorem ArqQueued.removeOwner (h : ArqQueued s his los) (owner : Nat) :
    ∃ his' los', ArqQueued (arqRemoveOwnerRequest s owner).1 his' los' := by
  obtain ⟨m, he, hrep⟩ := arqRemoveOwnerRequest_eq h.rep owner
  have hp : ∀ l : List R, l.filter (fun u => !decide ((s.req u).owner = owner)) = l.filter fun u => (s.req u).owner ≠ owner := by
    intro l
    refine List.filter_congr fun u _ => ?_
    simp
  rw [he]
  refine ⟨_, _, h.cancel (p := fun u => (s.req u).owner = owner) ?_ rfl (fun u => ?_) rfl rfl rfl rfl (.inl rfl)⟩
  · rw [hp, hp]
    exact hrep
  · show (s.waiting u && decide ((s.req u).owner ≠ owner)) = _
    simp

theorem ArqQueued.step (h : ArqQueued s his los) {e : ArqEvent R} (he : (arqSystem.restrict arqUnlinks).enabled s e) :
    ∃ his' los', ArqQueued (arqNext s e) his' los' := by
  obtain ⟨hg, hok⟩ := he
  cases e with
  | post r owner dir prio aramAddr mramAddr len cb => exact h.post hg
  | complete => exact h.complete hg.2
  | resume => exact h.resume
  | remove r => exact h.remove hok
  | removeOwner owner => exact h.removeOwner owner
  | flush => exact h.flush

theorem arq_run_queued {links : Mem ArqQ R} {req : R → ArqRequest} {chunkSize : Nat} {es : List (ArqEvent R)}
    (hl : (arqSystem.restrict arqUnlinks).Legal (arqStart links req chunkSize) es) :
    ∃ his los, ArqQueued (arqSystem.run (arqStart links req chunkSize) es) his los := by
  have h0 := arqStart_inv links req chunkSize
  obtain ⟨his, los, h⟩ := hl.invariant (I := fun s => ∃ his los, ArqQueued s his los) (fun _ _ ⟨_, _, hs⟩ he => hs.step he)
    ⟨[], [], h0.rep, h0.hi, h0.lo, Iff.rfl, h0.hiOut, h0.loOut, (fun hc => by cases hc), fun hc => by cases hc⟩
  exact ⟨his, los, h⟩

end Runs

/-! ## What the removal of an owner owes -/

/-- The request of low priority that is between two chunks, and on no queue. -/
def ArqSys.between (s : ArqSys R) : Option R := if s.callbackLo = none then s.pendingLo else none

/-- **The requests of an owner are removed** from the queues and from between two chunks; those of others stay in order, and `n` is the
number removed. -/
structure ArqOwnerRemoved (s s' : ArqSys R) (owner n : Nat) (his los his' los' : List R) : Prop where
  before : IsQueue s.links .hi his ∧ IsQueue s.links .lo los
  after : IsQueue s'.links .hi his' ∧ IsQueue s'.links .lo los'
  gone : ∀ r, (r ∈ his' ∨ r ∈ los' ∨ s'.between = some r) → (s'.req r).owner ≠ owner
  others : his' = his.filter (fun r => (s.req r).owner ≠ owner) ∧ los' = los.filter (fun r => (s.req r).owner ≠ owner) ∧
    ∀ r, s.between = some r → (s.req r).owner ≠ owner → s'.between = some r
  count : n + (his'.length + los'.length + s'.between.toList.length) = his.length + los.length + s.between.toList.length

omit [DecidableEq R] in
theorem countP_filter_length (req : R → ArqRequest) (owner : Nat) (l : List R) :
    (l.countP fun r => (req r).owner = owner) + (l.filter fun r => (req r).owner ≠ owner).length = l.length := by
  induction l with
  | nil => rfl
  | cons r l ih =>
    by_cases ho : (req r).owner = owner
    · rw [List.countP_cons_of_pos (by simpa using ho), List.filter_cons_of_neg (by simpa using ho), List.length_cons]
      omega
    · rw [List.countP_cons_of_neg (by simpa using ho), List.filter_cons_of_pos (by simpa using ho), List.length_cons,
        List.length_cons]
      omega

/-- **Removing an owner's requests**, wherever a run has come to: it does what it should exactly when the owner has no request between
two chunks. -/
theorem arq_owner_removed [Fintype R] {links : Mem ArqQ R} {req : R → ArqRequest} {chunkSize : Nat} {es : List (ArqEvent R)}
    (hl : (arqSystem.restrict arqUnlinks).Legal (arqStart links req chunkSize) es) (owner : Nat) :
    (∃ his los his' los', ArqOwnerRemoved (arqSystem.run (arqStart links req chunkSize) es)
        (arqRemoveOwnerRequest (arqSystem.run (arqStart links req chunkSize) es) owner).1 owner
        (arqRemoveOwnerRequest (arqSystem.run (arqStart links req chunkSize) es) owner).2 his los his' los') ↔
      ∀ r, (arqSystem.run (arqStart links req chunkSize) es).between = some r →
        ((arqSystem.run (arqStart links req chunkSize) es).req r).owner ≠ owner := by
  obtain ⟨his, los, h⟩ := arq_run_queued hl
  generalize arqSystem.run (arqStart links req chunkSize) es = s at h ⊢
  obtain ⟨m, he, hrep⟩ := arqRemoveOwnerRequest_eq h.rep owner
  rw [he]
  constructor
  · rintro ⟨his, los, his', los', hr⟩ r hb
    exact hr.gone r (.inr (.inr hb))
  · intro hb
    refine ⟨his, los, _, _, ⟨h.rep.linked rfl, h.rep.linked rfl⟩, ⟨hrep.linked rfl, hrep.linked rfl⟩, ?_, ⟨rfl, rfl, fun r hr _ => hr⟩, ?_⟩
    · rintro r (hr | hr | hr)
      · simpa using (List.mem_filter.1 hr).2
      · simpa using (List.mem_filter.1 hr).2
      · exact hb r hr
    · have h1 := countP_filter_length s.req owner his
      have h2 := countP_filter_length s.req owner los
      have h3 : (ArqSys.between { s with
            links := m
            waiting := fun r => s.waiting r && (s.req r).owner ≠ owner
            dropped := fun r => s.dropped r || (s.req r).owner = owner }) = s.between := rfl
      rw [h3]
      omega

end Owner

/-- An owner's chunk in flight that was removed, another's request queued, and both owners removed. -/
theorem arq_owner_removed_sample :
    (∃ his los his' los', ArqOwnerRemoved (arqSystem.run arqThree
        [.post 0 1 0 0 0 0 64 none, .post 1 2 0 0 0 0 64 none, .post 2 2 0 1 0 0 32 none, .removeOwner 1, .flush, .post 2 2 0 0 0 0 32 none])
      (arqRemoveOwnerRequest (arqSystem.run arqThree
        [.post 0 1 0 0 0 0 64 none, .post 1 2 0 0 0 0 64 none, .post 2 2 0 1 0 0 32 none, .removeOwner 1, .flush,
          .post 2 2 0 0 0 0 32 none]) 2).1 2
      (arqRemoveOwnerRequest (arqSystem.run arqThree
        [.post 0 1 0 0 0 0 64 none, .post 1 2 0 0 0 0 64 none, .post 2 2 0 1 0 0 32 none, .removeOwner 1, .flush,
          .post 2 2 0 0 0 0 32 none]) 2).2 his los his' los') ↔
      ∀ r, (arqSystem.run arqThree
        [.post 0 1 0 0 0 0 64 none, .post 1 2 0 0 0 0 64 none, .post 2 2 0 1 0 0 32 none, .removeOwner 1, .flush,
          .post 2 2 0 0 0 0 32 none]).between = some r →
        ((arqSystem.run arqThree
          [.post 0 1 0 0 0 0 64 none, .post 1 2 0 0 0 0 64 none, .post 2 2 0 1 0 0 32 none, .removeOwner 1, .flush,
            .post 2 2 0 0 0 0 32 none]).req r).owner ≠ 2 := by
  refine arq_owner_removed ?_ 2
  decide +kernel

/-- A request whose first chunk is in flight stays pending when its owner is removed, and is not counted. -/
theorem arq_owner_stays : arqSystem.Legal arqThree [.post 0 7 0 0 0 0 64 none] ∧
    ¬ ∃ his los his' los', ArqOwnerRemoved (arqSystem.run arqThree [.post 0 7 0 0 0 0 64 none])
        (arqRemoveOwnerRequest (arqSystem.run arqThree [.post 0 7 0 0 0 0 64 none]) 7).1 7
        (arqRemoveOwnerRequest (arqSystem.run arqThree [.post 0 7 0 0 0 0 64 none]) 7).2 his los his' los' := by
  refine ⟨by decide +kernel, ?_⟩
  rintro ⟨his, los, his', los', h⟩
  exact h.gone 0 (.inr (.inr (by decide +kernel))) (by decide +kernel)

end Libogc
