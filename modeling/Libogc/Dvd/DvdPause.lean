import Libogc.Dvd.DvdRead
/-!
# DvdPause — pausing and the order of the blocks

A block is started when it is the oldest of the first priority that waits, and not while the engine is paused (`DvdOrdered`).  An engine
that is not paused does not leave blocks waiting while none executes, if each `DVD_Resume` finds what it looks for (`dvdResumes`).
-/
namespace Libogc

open Runs

set_option linter.unusedSectionVars false

variable {B : Type} [DecidableEq B]

/-- A block that was started was the oldest of the first priority, and the engine was not paused. -/
def DvdStart.fair (d : DvdStart B) : Prop :=
  d.paused = false ∧ (d.prio, d.number) ∈ d.waiting ∧ ∀ q ∈ d.waiting, d.prio < q.1 ∨ d.prio = q.1 ∧ d.number ≤ q.2

/-- Each queue is in the order of issue. -/
structure DvdOrdered (s : DvdSys B) : Prop where
  inv : DvdInv False s
  numbers : DvdNumbers s
  sorted : ∀ p, (s.waitingqueue p).Pairwise fun x y => s.number x < s.number y
  starts : ∀ d ∈ s.starts, d.fair

/-- An engine that is not paused starts what waits. -/
def DvdSys.awake (s : DvdSys B) : Prop := s.pauseflag = false → (∃ p, s.waitingqueue p ≠ []) → s.core.executing ≠ .null

section Ordered
variable {ok clean : Prop} {c c₀ : DvdCore B} {b : B} {cb : DvdLow} {t result : Nat} {s s' : DvdSys B}

theorem DvdOrdered.frame (h : DvdOrdered s) (hinv : DvdInv False s') (hhist : s'.history = s.history)
    (hqueue : ∀ p, (s'.waitingqueue p).Sublist (s.waitingqueue p)) (hstarts : s'.starts = s.starts) : DvdOrdered s' where
  inv := hinv
  numbers := h.numbers.congr hhist
  sorted p := by
    simp only [DvdSys.history, Prod.mk.injEq] at hhist
    rw [hhist.2.1]
    exact (h.sorted p).sublist (hqueue p)
  starts := by
    rw [hstarts]
    exact h.starts

theorem DvdSys.push_starts (s : DvdSys B) (calls : List (DvdCall B)) : (s.push calls).starts = s.starts := by
  obtain ⟨todo, user, h⟩ := s.push_eq calls
  rw [h]

theorem DvdSys.mem_waiting {q : Fin 4 × Nat} : q ∈ s.waiting ↔ ∃ x ∈ s.waitingqueue q.1, q.2 = s.number x := by
  unfold DvdSys.waiting
  simp only [List.mem_flatMap, List.mem_finRange, true_and, List.mem_map]
  constructor
  · rintro ⟨p, x, hx, rfl⟩
    exact ⟨x, hx, rfl⟩
  · rintro ⟨x, hx, hq⟩
    exact ⟨q.1, x, hx, Prod.ext rfl hq.symm⟩

theorem DvdOutcome.notNull {calls : List (DvdCall B)} (h : DvdOutcome ok clean c₀ b t (c, calls)) : c.executing ≠ .null := by
  intro e
  cases h with
  | waits _ hw => cases hw.executing.symm.trans e
  | final hin _ _ _ => cases hin.executing.symm.trans e
  | stuck hin _ => cases hin.executing.symm.trans e
  | ends _ haft _ _ _ => cases haft.executing.symm.trans e

theorem DvdOrdered.fair (h : DvdOrdered s) {p : Fin 4} {rest : List B} (hq : s.waitingqueue p = b :: rest)
    (hbefore : ∀ q, q < p → s.waitingqueue q = []) (hpause : s.pauseflag = false) :
    DvdStart.fair (⟨b, s.pauseflag, p, s.number b, s.waiting⟩ : DvdStart B) := by
  refine ⟨hpause, DvdSys.mem_waiting.2 ⟨b, ?_, rfl⟩, fun q hmem => ?_⟩
  · rw [hq]
    exact List.mem_cons_self
  · obtain ⟨x, hx, hnum⟩ := DvdSys.mem_waiting.1 hmem
    rcases lt_trichotomy p q.1 with hlt | heq | hgt
    · exact .inl hlt
    · refine .inr ⟨heq, ?_⟩
      have hsorted := h.sorted p
      rw [← heq, hq] at hx
      rw [hq] at hsorted
      rw [hnum]
      rcases List.mem_cons.1 hx with rfl | hx
      · exact Nat.le_refl _
      · exact Nat.le_of_lt ((List.pairwise_cons.1 hsorted).1 x hx)
    · rw [hbefore q.1 hgt] at hx
      cases hx

theorem DvdOrdered.stateready (h : DvdOrdered s.cleared) : DvdOrdered s.stateready ∧ s.stateready.awake := by
  have hinv := h.inv.stateready False.elim
  have hhist : s.stateready.history = s.cleared.history := s.stateready_history
  rcases h.inv.stateready_cases with ⟨hempty, heq⟩ | ⟨hpause, heq⟩ | ⟨p, b, rest, calls, extra, hq, hbefore, hpause, -, -, c, hout, heq⟩
  · rw [heq]
    exact ⟨h, fun _ ⟨p, hne⟩ => absurd (hempty p) hne⟩
  · rw [heq] at hinv ⊢
    exact ⟨h.frame hinv rfl (fun _ => .refl _) rfl, fun hp => Bool.noConfusion (hpause.symm.trans hp)⟩
  · have hstarting : DvdSys.starts s.stateready = s.starts ++ [⟨b, s.pauseflag, p, s.number b, s.waiting⟩] := by
      rw [heq]
      exact DvdSys.push_starts _ _
    have hqueue : s.stateready.waitingqueue = Function.update s.waitingqueue p rest := by
      rw [heq]
      exact DvdSys.push_waitingqueue _ _
    refine ⟨⟨hinv, h.numbers.congr hhist, fun p' => ?_, fun d hd => ?_⟩, fun _ _ => ?_⟩
    · rw [hqueue]
      simp only [DvdSys.history, Prod.mk.injEq] at hhist
      rw [hhist.2.1]
      exact (h.sorted p').sublist (dvdQueue_update hq p')
    · rw [hstarting] at hd
      rcases List.mem_append.1 hd with hd | hd
      · exact h.starts d hd
      · rw [List.mem_singleton.1 hd]
        exact h.fair (s := s.cleared) hq hbefore hpause
    · rw [heq]
      have hnot := (hout False False False.elim False.elim).notNull
      unfold DvdSys.pushRun
      rw [DvdSys.push_core]
      exact hnot

theorem DvdOrdered.issuecommand (h : DvdOrdered s) (hi : s.idle = true ∨ s.user = true) (hpend : s.pending b = false)
    {blk : DvdBlock} (hv : blk.valid) (prio : Fin 4) : DvdOrdered (s.issuecommand prio b blk) ∧ (s.issuecommand prio b blk).awake := by
  have hinv := h.inv.enqueued (h.inv.noLow hi) hpend hv prio
  have hqueued : ∀ p, ∀ x ∈ s.waitingqueue p, x ≠ b ∧ s.number x < s.issued := by
    intro p x hx
    have hp := (h.inv.waiting x (h.inv.queued p x hx)).1
    refine ⟨?_, h.numbers.less x hp⟩
    rintro rfl
    rw [hpend] at hp
    cases hp
  have hnum : ∀ x, x ≠ b → (s.enqueued prio b blk).number x = s.number x := fun x hx => Function.update_of_ne hx ..
  have hself : (s.enqueued prio b blk).number b = s.issued := Function.update_self ..
  have hold : ∀ p, (s.waitingqueue p).Pairwise fun x y => (s.enqueued prio b blk).number x < (s.enqueued prio b blk).number y := by
    intro p
    refine (h.sorted p).imp_of_mem fun hx hy hlt => ?_
    rw [hnum _ (hqueued p _ hx).1, hnum _ (hqueued p _ hy).1]
    exact hlt
  have henq : DvdOrdered (s.enqueued prio b blk) := by
    refine ⟨hinv, h.numbers.enqueued prio b blk, fun p => ?_, h.starts⟩
    by_cases hp : p = prio
    · subst hp
      rw [show (s.enqueued p b blk).waitingqueue p = s.waitingqueue p ++ [b] from Function.update_self ..]
      refine List.pairwise_append.2 ⟨hold p, List.pairwise_singleton _ _, fun x hx y hy => ?_⟩
      obtain ⟨hxb, hless⟩ := hqueued p x hx
      rw [List.mem_singleton.1 hy, hself, hnum x hxb]
      exact hless
    · rw [show (s.enqueued prio b blk).waitingqueue p = s.waitingqueue p from Function.update_of_ne hp ..]
      exact hold p
  rw [DvdSys.issuecommand_eq]
  split
  case isTrue hnull =>
    exact DvdOrdered.stateready (henq.frame (hinv.cleared hnull.1) rfl (fun _ => .refl _) rfl)
  case isFalse hnull =>
    refine ⟨henq, fun hp _ e => hnull ⟨e, ?_⟩⟩
    show (!s.pauseflag) = true
    rw [show s.pauseflag = false from hp]
    rfl

/-- A `DVD_Resume` that starts what waits, or need not. -/
def DvdSys.resumable (s : DvdSys B) : Prop := s.pausingflag = true ∨ s.core.executing ≠ .null ∨ s.checkwaitingqueue = false

instance (s : DvdSys B) : Decidable s.resumable := inferInstanceAs (Decidable (_ ∨ _ ∨ _))

theorem DvdOrdered.resumes (h : DvdOrdered s) (hno : dvdNoLow s.todo) : DvdOrdered s.resume ∧ (s.resumable → s.resume.awake) := by
  have hinv := h.inv.resumes hno False.elim
  unfold DvdSys.resume at hinv ⊢
  dsimp only at hinv ⊢
  by_cases hp : s.pausingflag = true
  · rw [if_pos hp]
    have hs : DvdInv False { s with pauseflag := false, pausingflag := false } :=
      h.inv.frame hno hno (.refl h.inv.resume) rfl (fun _ => .refl _) rfl rfl rfl h.inv.errors fun e => by cases e
    have hready := DvdOrdered.stateready (h.frame (hs.cleared (h.inv.pausing hp).1) rfl (fun _ => .refl _) rfl)
    exact ⟨hready.1, fun _ => hready.2⟩
  · rw [if_neg hp] at hinv ⊢
    refine ⟨h.frame hinv rfl (fun _ => .refl _) rfl, fun hr _ ⟨p, hne⟩ => ?_⟩
    rcases hr with e | e | e
    · exact absurd e hp
    · exact e
    · exact absurd ((DvdSys.checkwaitingqueue_eq_false s).1 e p) hne

/-! ### Steps that start nothing -/

/-- No block is started or added to a queue, and none that executed leaves the engine idle. -/
structure DvdPassive (s s' : DvdSys B) : Prop where
  number : s'.number = s.number
  queue : ∀ p, (s'.waitingqueue p).Sublist (s.waitingqueue p)
  starts : s'.starts = s.starts
  pauseflag : s'.pauseflag = false → s.pauseflag = false
  executing : s'.core.executing = .null → s.core.executing = .null

theorem DvdPassive.trans {s'' : DvdSys B} (h : DvdPassive s s') (h' : DvdPassive s' s'') : DvdPassive s s'' where
  number := h'.number.trans h.number
  queue p := (h'.queue p).trans (h.queue p)
  starts := h'.starts.trans h.starts
  pauseflag e := h.pauseflag (h'.pauseflag e)
  executing e := h.executing (h'.executing e)

theorem DvdPassive.push (s : DvdSys B) (calls : List (DvdCall B)) : DvdPassive s (s.push calls) := by
  obtain ⟨todo, user, h⟩ := s.push_eq calls
  rw [h]
  exact ⟨rfl, fun _ => .refl _, rfl, id, id⟩

theorem DvdPassive.ordered (hp : DvdPassive s s') (h : DvdOrdered s) (hinv : DvdInv False s') (hnum : DvdNumbers s') : DvdOrdered s' where
  inv := hinv
  numbers := hnum
  sorted p := by
    rw [hp.number]
    exact (h.sorted p).sublist (hp.queue p)
  starts := by
    rw [hp.starts]
    exact h.starts

theorem DvdPassive.awake (hp : DvdPassive s s') (h : s.awake) : s'.awake := by
  intro hpause ⟨p, hne⟩ e
  refine h (hp.pauseflag hpause) ⟨p, fun hnil => hne ?_⟩ (hp.executing e)
  have hsub := hp.queue p
  rw [hnil] at hsub
  exact List.sublist_nil.1 hsub

theorem DvdTurned.passive (ht : DvdTurned ok clean s s') : DvdPassive s s' := by
  cases ht with
  | @idle c₁ extra htaken hcb hno hextra =>
    obtain ⟨regs, low, rfl⟩ := htaken.eq
    have hset : DvdPassive s { s with core := { s.core with regs := regs, low := low } } := ⟨rfl, fun _ => .refl _, rfl, id, id⟩
    exact hset.trans (.push _ _)
  | @called b cb c₁ c m result calls extra hc hm htodo hcalled hmid hcall hout hextra hdel =>
    obtain ⟨delivered, todo, user, rfl⟩ := hm
    have hset : DvdPassive s { s with core := c, delivered := delivered, todo := todo, user := user } :=
      ⟨rfl, fun _ => .refl _, rfl, id, fun e => absurd e hout.notNull⟩
    exact hset.trans (.push _ _)

theorem DvdInv.cancelAsync_passive (h : DvdInv ok s) (hno : dvdNoLow s.todo) (e : DvdExec B) (id : Option Nat) :
    DvdPassive s (s.cancelAsync e id) := by
  have haccept : ∀ (m : DvdSys B) (e : DvdExec B), DvdPassive m (m.accept id e) := fun m e => ⟨rfl, fun _ => .refl _, rfl, fun e => e, fun e => e⟩
  rcases h.cancelAsync_cases hno e id with ⟨-, heq⟩ | ⟨-, heq⟩ | ⟨-, brk, heq⟩ | ⟨b, -, -, heq⟩ | ⟨b, -, -, heq⟩
  · rw [heq]
    exact (haccept s e).trans (.push _ _)
  · rw [heq]
    exact haccept s e
  · rw [heq]
    unfold DvdSys.cancelFlag
    split
    · exact ⟨rfl, fun _ => .refl _, rfl, fun e => e, fun e => e⟩
    · exact ⟨rfl, fun _ => .refl _, rfl, fun e => e, fun e => e⟩
  · rw [heq]
    unfold DvdSys.cancelWaiting
    refine DvdPassive.trans ?_ (.push _ _)
    exact ⟨rfl, fun _ => List.erase_sublist, rfl, fun e => e, fun e => e⟩
  · rw [heq]
    unfold DvdSys.cancelCover
    refine DvdPassive.trans ?_ (.push _ _)
    exact ⟨rfl, fun _ => .refl _, rfl, fun e => e, fun e => by cases e⟩

theorem DvdPassive.answer (s : DvdSys B) (id : Option Nat) : DvdPassive s (s.answer id) := by
  cases id <;> exact ⟨rfl, fun _ => .refl _, rfl, fun e => e, fun e => e⟩

/-- The call is one that may start a block. -/
def DvdCall.starts : DvdCall B → Bool
  | .stateready | .resume => true
  | _ => false

theorem DvdInv.run_passive (h : DvdInv ok s) (hlow : ∀ cb result rest, s.todo ≠ .low cb result :: rest)
    (hstarts : ∀ call rest, s.todo = call :: rest → call.starts = false) : DvdPassive s s.run := by
  cases htodo : s.todo with
  | nil =>
    unfold DvdSys.run
    rw [htodo]
    exact ⟨rfl, fun _ => .refl _, rfl, id, id⟩
  | cons call rest =>
    rw [DvdSys.run_eq htodo]
    have hno' := h.tail_noLow htodo
    have hpop : DvdPassive s (s.popped rest) := ⟨rfl, fun _ => .refl _, rfl, id, id⟩
    refine hpop.trans ?_
    have hsame : ∀ m : DvdSys B, DvdPassive m m := fun m => ⟨rfl, fun _ => .refl _, rfl, id, id⟩
    have hcall := hstarts call rest htodo
    cases call with
    | stateready => cases hcall
    | resume => cases hcall
    | low cb result => exact absurd htodo (hlow cb result rest)
    | clearwaitingqueue => exact ⟨rfl, fun _ => List.nil_sublist _, rfl, id, id⟩
    | user e result =>
      cases e with
      | block b => exact ⟨rfl, fun _ => .refl _, rfl, id, id⟩
      | null => exact hsame _
      | dummy => exact hsame _
    | cancelcb e => exact .answer _ _
    | errorcancel e =>
      unfold DvdSys.runCall
      dsimp only
      split
      · have hset : DvdPassive (s.popped rest) { s.popped rest with core := { s.core with canceling := false } } :=
          ⟨rfl, fun _ => .refl _, rfl, id, id⟩
        exact hset.trans (.answer _ _)
      · exact hsame _
    | mountcb e => exact ⟨rfl, fun _ => .refl _, rfl, id, id⟩
    | resumed => exact ⟨rfl, fun _ => .refl _, rfl, id, id⟩
    | unbreak => exact ⟨rfl, fun _ => .refl _, rfl, id, id⟩
    | cb id e => exact .answer _ _
    | cancelAll id =>
      have hs := h.popped htodo rfl
      rcases (s.popped rest).cancelAll_cases id with ⟨p, b, rest', hq, heq⟩ | ⟨-, heq⟩ | ⟨-, heq⟩
      · rw [heq]
        have hno'' : dvdNoLow (DvdCall.cancelAll id :: rest) := fun cb r hm => by
          rcases List.mem_cons.1 hm with e | hm
          · cases e
          · exact hno' cb r hm
        have hset : DvdPassive (s.popped rest) { s.popped rest with
            waitingqueue := Function.update s.waitingqueue p rest', todo := .cancelAll id :: rest } :=
          ⟨rfl, dvdQueue_update hq, rfl, fun e => e, fun e => e⟩
        have hinv : DvdInv ok { s.popped rest with
            waitingqueue := Function.update s.waitingqueue p rest', todo := .cancelAll id :: rest } :=
          hs.frame hno' hno'' (.refl hs.resume) rfl (dvdQueue_update hq) rfl rfl rfl hs.errors hs.pausing
        exact hset.trans (hinv.cancelAsync_passive hno'' _ _)
      · rw [heq]
        have hset : DvdPassive (s.popped rest) ((s.popped rest).accept id .null) := ⟨rfl, fun _ => .refl _, rfl, fun e => e, fun e => e⟩
        exact hset.trans (.push _ _)
      · rw [heq]
        exact hs.cancelAsync_passive hno' _ id
    | back => exact ⟨rfl, fun _ => .refl _, rfl, id, id⟩

/-- Each `DVD_Resume`, the one at the end of `DVD_CancelAllAsync` too, starts what waits, or need not. -/
def dvdResumes (s : DvdSys B) : DvdEvent B → Prop
  | .resume => s.resumable
  | .run => s.todo.head? = some .resume → s.resumable
  | _ => True

instance (s : DvdSys B) : (e : DvdEvent B) → Decidable (dvdResumes s e)
  | .resume => inferInstanceAs (Decidable s.resumable)
  | .run => inferInstanceAs (Decidable (_ → s.resumable))
  | .issue _ _ _ | .pause | .cancel _ _ | .cancelAll _ | .interrupt _ _ | .cover _ | .timeout _ => inferInstanceAs (Decidable True)

/-- **Every step keeps the order**, and what waits is not left waiting, if a resume starts it. -/
theorem DvdOrdered.next (h : DvdOrdered s) (hawake : s.awake) {e : DvdEvent B} (he : dvdGuard s e) :
    DvdOrdered (dvdNext s e) ∧ (dvdResumes s e → (dvdNext s e).awake) := by
  have hinv := h.inv.next he False.elim
  have hnum := h.numbers.next h.inv he
  have hpassive : DvdPassive s (dvdNext s e) → DvdOrdered (dvdNext s e) ∧ (dvdResumes s e → (dvdNext s e).awake) := fun hp =>
    ⟨hp.ordered h hinv hnum, fun _ => hp.awake hawake⟩
  have hturned : e.turns s → DvdOrdered (dvdNext s e) ∧ (dvdResumes s e → (dvdNext s e).awake) := by
    intro hturns
    have ht : DvdTurned False False s (dvdNext s e) := h.inv.turned he hturns False.elim False.elim
    exact hpassive ht.passive
  cases e with
  | issue prio b blk =>
    have hissue := h.issuecommand he.1 he.2.1 ⟨he.2.2.1, he.2.2.2.1⟩ prio
    exact ⟨hissue.1, fun _ => hissue.2⟩
  | pause => exact hpassive ⟨rfl, fun _ => .refl _, rfl, (fun e => by cases e), id⟩
  | resume => exact h.resumes (h.inv.noLow he)
  | cancel b id => exact hpassive (h.inv.cancelAsync_passive (h.inv.noLow he.1) _ id)
  | cancelAll id =>
    have hpause : DvdPassive s s.pause := ⟨rfl, fun _ => .refl _, rfl, (fun e => by cases e), fun e => e⟩
    exact hpassive (hpause.trans (.push s.pause [.cancelAll id, .resume]))
  | run =>
    by_cases hlow : ∃ cb result rest, s.todo = .low cb result :: rest
    · exact hturned hlow
    by_cases hstarts : ∃ call rest, s.todo = call :: rest ∧ call.starts = true
    · obtain ⟨call, rest, htodo, hcall⟩ := hstarts
      show DvdOrdered s.run ∧ (_ → s.run.awake)
      rw [DvdSys.run_eq htodo]
      cases call with
      | stateready =>
        have hready := DvdOrdered.stateready (s := s.popped rest) (h.frame (h.inv.ready htodo) rfl (fun _ => .refl _) rfl)
        exact ⟨hready.1, fun _ => hready.2⟩
      | resume =>
        have hpop : DvdOrdered (s.popped rest) := h.frame (h.inv.popped htodo rfl) rfl (fun _ => .refl _) rfl
        have hres := hpop.resumes (h.inv.tail_noLow htodo)
        refine ⟨hres.1, fun hr => hres.2 (hr ?_)⟩
        rw [htodo]
        rfl
      | _ => cases hcall
    · refine hpassive (h.inv.run_passive (fun cb result rest e => hlow ⟨cb, result, rest, e⟩) fun call rest e => ?_)
      exact Bool.eq_false_iff.2 fun hcall => hstarts ⟨call, rest, e, hcall⟩
  | _ => exact hturned trivial

theorem dvdOrdered_init (drive : DvdDrive) : DvdOrdered (dvdInit (B := B) drive) ∧ (dvdInit (B := B) drive).awake :=
  ⟨⟨dvdInv_init drive, dvdNumbers_init drive, fun _ => .nil, fun _ hm => by cases hm⟩, fun _ ⟨_, hne⟩ => absurd rfl hne⟩

end Ordered

/-! ## Runs -/

/-- What pausing promises. -/
structure DvdPausing (s : DvdSys B) : Prop where
  awake : s.idle = true → s.awake
  starts : ∀ d ∈ s.starts, d.fair

/-- **An engine that is not paused starts what waits, oldest first**: in every run in which a resume finds what it looks for. -/
theorem dvd_resumed_starts (drive : DvdDrive) {es : List (DvdEvent B)} (hl : (dvdSystem.restrict dvdResumes).Legal (dvdInit (B := B) drive) es) :
    DvdPausing (dvdSystem.run (dvdInit drive) es) := by
  have hstep : ∀ (s : DvdSys B) e, DvdOrdered s ∧ s.awake → (dvdSystem.restrict dvdResumes).enabled s e →
      DvdOrdered (dvdNext s e) ∧ (dvdNext s e).awake := by
    intro s e hs he
    obtain ⟨hord, hawake⟩ := hs.1.next hs.2 he.1
    exact ⟨hord, hawake he.2⟩
  have h := hl.invariant hstep (dvdOrdered_init drive)
  exact ⟨fun _ => h.2, h.1.starts⟩

theorem dvd_resumed_starts_one :
    DvdPausing (dvdSystem.run (dvdInit (B := Unit) dvdDrive0) [.pause, .issue 2 () dvdRead0, .resume]) :=
  dvd_resumed_starts dvdDrive0 (by decide)

/-- A read ends while the engine is paused and nothing waits; what is issued then is not started by the resume. -/
theorem dvd_resume_starts_nothing :
    ¬ ∀ (drive : DvdDrive) (es : List (DvdEvent Unit)), (dvdSystem.restrict fun _ e => dvdUncancelled e).Legal (dvdInit drive) es →
      DvdPausing (dvdSystem.run (dvdInit drive) es) := by
  intro h
  have hawake := (h dvdDrive0 [.issue 2 () dvdRead0, .pause, .interrupt false dvdRegs0, .run, .run, .run,
    .issue 2 () dvdRead0, .resume] (by decide)).awake
  exact absurd (hawake (by decide) (by decide) ⟨2, by decide⟩) (by decide)

end Libogc
