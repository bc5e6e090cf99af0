import Libogc.Dvd.DvdRuns
/-!
# DvdOnce — every block is called back once

Each issue has a number; the callbacks made carry different ones (`DvdNumbers`).  An engine without cancels that goes on as it should
(`dvdGoesOn`) leaves no block behind, and every block that is called back has ended (`DvdSound`).
-/
namespace Libogc

open Runs

set_option linter.unusedSectionVars false

variable {B : Type} [DecidableEq B]

/-! ## The history of issues -/

/-- What is issued and called back. -/
def DvdSys.history (s : DvdSys B) : Nat × (B → Nat) × (B → Bool) × List (DvdDone B) := (s.issued, s.number, s.pending, s.done)

section History
variable {ok : Prop} {s s' : DvdSys B}

theorem DvdSys.push_history (s : DvdSys B) (calls : List (DvdCall B)) : (s.push calls).history = s.history := by
  obtain ⟨todo, user, h⟩ := s.push_eq calls
  rw [h]
  rfl

theorem DvdSys.pushRun_history (s : DvdSys B) (r : DvdRun B) : (s.pushRun r).history = s.history := DvdSys.push_history _ r.2

theorem DvdSys.stateready_history (s : DvdSys B) : s.stateready.history = s.history := by
  unfold DvdSys.stateready
  split
  · rfl
  split
  · rfl
  rcases s.popwaitingqueue_cases with ⟨hpop, -⟩ | ⟨p, b, rest, hpop, -, -⟩
  · rw [hpop]
  · rw [hpop]
    exact DvdSys.pushRun_history _ _

theorem DvdSys.resume_history (s : DvdSys B) : s.resume.history = s.history := by
  unfold DvdSys.resume
  dsimp only
  split
  · exact DvdSys.stateready_history _
  · rfl

theorem DvdSys.turn_history (s : DvdSys B) (c₁ : DvdCore B) (result : Nat) (extra : List (DvdCall B)) :
    (s.turn c₁ result extra).history = s.history := by
  unfold DvdSys.turn
  split
  · exact DvdSys.pushRun_history _ _
  · exact DvdSys.pushRun_history _ _

theorem DvdInv.cancelAsync_history (h : DvdInv ok s) (hno : dvdNoLow s.todo) (e : DvdExec B) (id : Option Nat) :
    (s.cancelAsync e id).history = s.history := by
  rcases h.cancelAsync_cases hno e id with ⟨-, heq⟩ | ⟨-, heq⟩ | ⟨-, brk, heq⟩ | ⟨b, -, -, heq⟩ | ⟨b, -, -, heq⟩
  · rw [heq]
    exact DvdSys.push_history _ _
  · rw [heq]
    rfl
  · rw [heq]
    unfold DvdSys.cancelFlag
    split <;> rfl
  · rw [heq]
    exact DvdSys.push_history _ _
  · rw [heq]
    exact DvdSys.push_history _ _

theorem DvdSys.answer_history (s : DvdSys B) (id : Option Nat) : (s.answer id).history = s.history := by cases id <;> rfl

theorem DvdInv.cancelAll_history (h : DvdInv ok s) (hno : dvdNoLow s.todo) (id : Option Nat) :
    (s.runCall (.cancelAll id)).history = s.history := by
  rcases s.cancelAll_cases id with ⟨p, b, rest, hq, heq⟩ | ⟨-, heq⟩ | ⟨-, heq⟩
  · rw [heq]
    have hno' : dvdNoLow (DvdCall.cancelAll id :: s.todo) := fun cb r hm => by
      rcases List.mem_cons.1 hm with e | hm
      · cases e
      · exact hno cb r hm
    have hs : DvdInv ok { s with waitingqueue := Function.update s.waitingqueue p rest, todo := .cancelAll id :: s.todo } :=
      h.frame hno hno' (.refl h.resume) rfl (dvdQueue_update hq) rfl rfl rfl h.errors h.pausing
    exact hs.cancelAsync_history hno' _ _
  · rw [heq]
    exact DvdSys.push_history _ _
  · rw [heq]
    exact h.cancelAsync_history hno _ id

variable {e : DvdEvent B}

/-- The history changes when a block is issued, and when one is called back. -/
theorem DvdInv.history_cases (h : DvdInv ok s) (he : dvdGuard s e) : (dvdNext s e).history = s.history ∨
      (∃ prio b blk, e = .issue prio b blk ∧ (dvdNext s e).history = (s.enqueued prio b blk).history) ∨
      ∃ b result rest, e = .run ∧ s.todo = .user (.block b) result :: rest ∧ dvdNext s e = (s.popped rest).calledBack b result := by
  cases e with
  | issue prio b blk =>
    refine .inr (.inl ⟨prio, b, blk, rfl, ?_⟩)
    show (s.issuecommand prio b blk).history = _
    rw [DvdSys.issuecommand_eq]
    split
    · exact DvdSys.stateready_history _
    · rfl
  | pause => exact .inl rfl
  | resume => exact .inl s.resume_history
  | cancel b id => exact .inl (h.cancelAsync_history (h.noLow he.1) _ id)
  | cancelAll id => exact .inl (DvdSys.push_history _ _)
  | interrupt de regs =>
    left
    show (s.interrupt de regs).history = _
    rw [DvdSys.interrupt_eq]
    exact DvdSys.turn_history _ _ _ _
  | cover regs =>
    left
    show (s.cover regs).history = _
    rw [DvdSys.cover_eq]
    exact DvdSys.turn_history _ _ _ _
  | timeout regs =>
    left
    show (s.timeout regs).history = _
    rw [DvdSys.timeout_eq]
    exact DvdSys.turn_history _ _ _ _
  | run =>
    show s.run.history = _ ∨ _ ∨ ∃ b result rest, _ ∧ _ ∧ s.run = _
    cases htodo : s.todo with
    | nil =>
      left
      unfold DvdSys.run
      rw [htodo]
      rfl
    | cons call rest =>
      rw [DvdSys.run_eq htodo]
      have hpop : (s.popped rest).history = s.history := rfl
      cases call with
      | user e result =>
        cases e with
        | block b => exact .inr (.inr ⟨b, result, rest, rfl, rfl, rfl⟩)
        | _ => exact .inl rfl
      | clearwaitingqueue => exact .inl rfl
      | cancelcb e => exact .inl (DvdSys.answer_history _ _)
      | errorcancel e =>
        left
        unfold DvdSys.runCall
        dsimp only
        split
        · exact DvdSys.answer_history { s.popped rest with core := { s.core with canceling := false } } _
        · rfl
      | mountcb e => exact .inl rfl
      | stateready => exact .inl (DvdSys.stateready_history _)
      | low cb result => exact .inl (DvdSys.pushRun_history _ _)
      | resumed => exact .inl rfl
      | unbreak => exact .inl rfl
      | cb id e => exact .inl (DvdSys.answer_history _ _)
      | cancelAll id => exact .inl ((h.popped htodo rfl).cancelAll_history (h.tail_noLow htodo) id)
      | resume => exact .inl (DvdSys.resume_history _)
      | back => exact .inl rfl

/-- The numbers of the issues: those that are pending are different, and none of them is over. -/
structure DvdNumbers (s : DvdSys B) : Prop where
  less : ∀ x, s.pending x = true → s.number x < s.issued
  one : ∀ x y, s.pending x = true → s.pending y = true → s.number x = s.number y → x = y
  done : ∀ d ∈ s.done, d.number < s.issued ∧ ∀ x, s.pending x = true → s.number x ≠ d.number
  nodup : (s.done.map DvdDone.number).Nodup

theorem DvdNumbers.congr (h : DvdNumbers s) (heq : s'.history = s.history) : DvdNumbers s' := by
  simp only [DvdSys.history, Prod.mk.injEq] at heq
  obtain ⟨hi, hn, hp, hd⟩ := heq
  constructor
  · rw [hi, hn, hp]
    exact h.less
  · rw [hn, hp]
    exact h.one
  · rw [hi, hn, hp, hd]
    exact h.done
  · rw [hd]
    exact h.nodup

theorem DvdNumbers.enqueued (h : DvdNumbers s) (prio : Fin 4) (b : B) (blk : DvdBlock) : DvdNumbers (s.enqueued prio b blk) := by
  have hcases : ∀ x, (s.enqueued prio b blk).pending x = true →
      x = b ∧ (s.enqueued prio b blk).number x = s.issued ∨
        x ≠ b ∧ s.pending x = true ∧ (s.enqueued prio b blk).number x = s.number x := by
    intro x hx
    by_cases hxb : x = b
    · subst hxb
      exact .inl ⟨rfl, Function.update_self ..⟩
    · rw [show (s.enqueued prio b blk).pending x = _ from Function.update_of_ne hxb ..] at hx
      exact .inr ⟨hxb, hx, Function.update_of_ne hxb ..⟩
  constructor
  · intro x hx
    show _ < s.issued + 1
    rcases hcases x hx with ⟨-, hn⟩ | ⟨-, hp, hn⟩
    · rw [hn]
      exact Nat.lt_succ_self _
    · rw [hn]
      exact Nat.lt_succ_of_lt (h.less x hp)
  · intro x y hx hy heq
    rcases hcases x hx with ⟨hxb, hn⟩ | ⟨hxb, hp, hn⟩ <;> rcases hcases y hy with ⟨hyb, hn'⟩ | ⟨hyb, hp', hn'⟩
    · rw [hxb, hyb]
    · rw [hn, hn'] at heq
      exact absurd heq.symm (Nat.ne_of_lt (h.less y hp'))
    · rw [hn, hn'] at heq
      exact absurd heq (Nat.ne_of_lt (h.less x hp))
    · rw [hn, hn'] at heq
      exact h.one x y hp hp' heq
  · intro d hd
    obtain ⟨hlt, hne⟩ := h.done d hd
    refine ⟨Nat.lt_succ_of_lt hlt, fun x hx => ?_⟩
    rcases hcases x hx with ⟨-, hn⟩ | ⟨-, hp, hn⟩
    · rw [hn]
      exact (Nat.ne_of_lt hlt).symm
    · rw [hn]
      exact hne x hp
  · exact h.nodup

theorem DvdNumbers.calledBack (h : DvdNumbers s) {b : B} (hb : s.pending b = true) (result : Int) : DvdNumbers (s.calledBack b result) := by
  have hcases : ∀ x, (s.calledBack b result).pending x = true → x ≠ b ∧ s.pending x = true := by
    intro x hx
    have hxb : x ≠ b := by
      rintro rfl
      rw [show (s.calledBack x result).pending x = false from Function.update_self ..] at hx
      cases hx
    exact ⟨hxb, (Function.update_of_ne hxb ..).symm.trans hx⟩
  constructor
  · exact fun x hx => h.less x (hcases x hx).2
  · exact fun x y hx hy heq => h.one x y (hcases x hx).2 (hcases y hy).2 heq
  · intro d hd
    rcases List.mem_append.1 hd with hd | hd
    · exact ⟨(h.done d hd).1, fun x hx => (h.done d hd).2 x (hcases x hx).2⟩
    · rw [List.mem_singleton.1 hd]
      exact ⟨h.less b hb, fun x hx heq => (hcases x hx).1 (h.one x b (hcases x hx).2 hb heq)⟩
  · show ((s.done ++ [_]).map DvdDone.number).Nodup
    rw [List.map_append]
    refine List.nodup_append.2 ⟨h.nodup, List.nodup_singleton _, fun x hx y hy e => ?_⟩
    obtain ⟨d, hd, rfl⟩ := List.mem_map.1 hx
    rw [List.mem_singleton.1 hy] at e
    exact (h.done d hd).2 b hb e.symm

theorem DvdNumbers.next (h : DvdNumbers s) (hinv : DvdInv ok s) (he : dvdGuard s e) : DvdNumbers (dvdNext s e) := by
  rcases hinv.history_cases he with heq | ⟨prio, b, blk, -, heq⟩ | ⟨b, result, rest, -, htodo, heq⟩
  · exact h.congr heq
  · exact (h.enqueued prio b blk).congr heq
  · rw [heq]
    refine DvdNumbers.calledBack (s := s.popped rest) (h.congr rfl) (hinv.called b ?_) result
    rw [htodo]
    exact List.mem_cons_self

theorem dvdNumbers_init (drive : DvdDrive) : DvdNumbers (dvdInit (B := B) drive) :=
  ⟨(fun x hx => by cases hx), (fun x y hx => by cases hx), (fun d hd => by cases hd), List.nodup_nil⟩

end History

/-! ## Nothing is left behind -/

/-- The states of a block that is over. -/
def DvdState.over : DvdState → Bool
  | .END | .FATAL_ERROR | .CANCELED | .IGNORED => true
  | _ => false

/-- No cancel is asked for. -/
def dvdUncancelled : DvdEvent B → Prop
  | .cancel _ _ | .cancelAll _ => False
  | _ => True

instance : (e : DvdEvent B) → Decidable (dvdUncancelled e)
  | .cancel _ _ | .cancelAll _ => inferInstanceAs (Decidable False)
  | .issue _ _ _ | .pause | .resume | .run | .interrupt _ _ | .cover _ | .timeout _ => inferInstanceAs (Decidable True)

/-- The calls that drop no block. -/
def DvdCall.keeps : DvdCall B → Bool
  | .clearwaitingqueue | .cancelAll _ => false
  | _ => true

/-- Nothing is left of a cancel. -/
def DvdCore.calm (c : DvdCore B) : Prop := c.canceling = false ∧ c.resumefromhere = 0

structure DvdSound (s : DvdSys B) : Prop where
  inv : DvdInv True s
  numbers : DvdNumbers s
  calm : s.core.calm
  keeps : ∀ call ∈ s.todo, call.keeps = true
  ends : ∀ x ∈ dvdUsers s.todo, (s.core.blocks x).state.over = true
  done : ∀ d ∈ s.done, d.blk.state.over = true
  held : ∀ x, s.pending x = true → (∃ p, x ∈ s.waitingqueue p) ∨ s.core.executing = .block x ∨ x ∈ dvdUsers s.todo

section Sound
variable {clean : Prop} {s s' : DvdSys B} {c₀ c : DvdCore B} {b : B} {t : Nat}

variable {calls rest : List (DvdCall B)} {call : DvdCall B}

/-- What a function comes to, when the engine goes on as it should and no cancel is asked for. -/
theorem DvdOutcome.sound (h : DvdOutcome True clean c₀ b t (c, calls)) (hcalm : c₀.calm) :
    c.calm ∧ (∀ call ∈ calls, call.keeps = true) ∧ (∀ x ∈ dvdUsers calls, x = b ∧ (c.blocks b).state.over = true) ∧
      (c.executing = .block b ∨ b ∈ dvdUsers calls) ∧ ∀ x, x ≠ b → c.blocks x = c₀.blocks x := by
  have hat : DvdAt c₀ b t c → c.calm := fun hat =>
    ⟨hat.canceling.trans hcalm.1, Nat.le_zero.1 (Nat.le_trans (hat.resume.2 hcalm.1) (Nat.le_of_eq hcalm.2))⟩
  cases h with
  | waits cb h => exact ⟨hat h.toDvdAt, (fun _ hm => by cases hm), (fun _ hm => by cases hm), .inl h.executing, h.others⟩
  | stuck h hok => exact absurd trivial hok
  | final h _ _ _ =>
    exact ⟨hat h.toDvdAt, (fun call hm => by rw [List.mem_singleton.1 hm]; rfl), (fun _ hm => by cases hm), .inl h.executing, h.others⟩
  | @ends _ state canceling _ he h _ _ _ =>
    have hover : c.canceling = false ∧ state.over = true := by
      rw [h.canceling]
      cases he with
      | cancelled e => exact ⟨rfl, rfl⟩
      | error state hf _ => exact ⟨hcalm.1, by rw [hf trivial]; rfl⟩
      | covered state _ _ hok _ => exact absurd trivial hok
      | remounted _ => exact ⟨hcalm.1, rfl⟩
      | finished state result hst _ =>
        refine ⟨hcalm.1, ?_⟩
        rcases hst with rfl | rfl | rfl <;> rfl
    refine ⟨⟨hover.1, Nat.le_zero.1 (Nat.le_trans (h.resume.2 hcalm.1) (Nat.le_of_eq hcalm.2))⟩, ?_, ?_, .inr ?_, h.others⟩
    · intro call hm
      cases he with
      | covered state _ _ hok _ => exact absurd trivial hok
      | cancelled | error | remounted =>
        simp only [List.mem_cons, List.not_mem_nil, or_false] at hm
        rcases hm with rfl | rfl | rfl <;> rfl
      | finished =>
        simp only [List.mem_cons, List.not_mem_nil, or_false] at hm
        rcases hm with rfl | rfl <;> rfl
    · intro x hm
      rw [he.calls.1] at hm
      exact ⟨List.mem_singleton.1 hm, by rw [h.state]; exact hover.2⟩
    · rw [he.calls.1]
      exact List.mem_singleton_self b

/-- What holds besides while a function of the driver runs for the block `b`. -/
structure DvdSoundMid (b : B) (c₀ : DvdCore B) (m : DvdSys B) : Prop where
  mid : DvdMid b c₀ m
  numbers : DvdNumbers m
  calm : c₀.calm
  keeps : ∀ call ∈ m.todo, call.keeps = true
  ends : ∀ x ∈ dvdUsers m.todo, (c₀.blocks x).state.over = true
  done : ∀ d ∈ m.done, d.blk.state.over = true
  held : ∀ x, x ≠ b → m.pending x = true → (∃ p, x ∈ m.waitingqueue p) ∨ x ∈ dvdUsers m.todo

theorem DvdSoundMid.outcome {m : DvdSys B} (h : DvdSoundMid b c₀ m) {extra : List (DvdCall B)}
    (hout : DvdOutcome True clean c₀ b t (c, calls)) (hextra : ∀ call ∈ extra, call = .resumed ∨ call = .unbreak) :
    DvdSound (m.pushRun (c, calls ++ extra)) := by
  have hplain : ∀ call ∈ extra, call.plain = true := fun call hm => by rcases hextra call hm with rfl | rfl <;> rfl
  have hkeeps : ∀ call ∈ extra, call.keeps = true := fun call hm => by rcases hextra call hm with rfl | rfl <;> rfl
  obtain ⟨hcalm, hcalls, hover, hexec, hothers⟩ := hout.sound h.calm
  have husers := DvdSys.push_users (s := { m with core := c }) (calls ++ extra)
  rw [dvdUsers_append, dvdUsers_plain hplain, List.append_nil] at husers
  obtain ⟨back, hback, htodo⟩ := DvdSys.push_todo { m with core := c } (calls ++ extra)
  have hinv := h.mid.outcome hout hplain
  have hnumbers : DvdNumbers (m.pushRun (c, calls ++ extra)) := h.numbers.congr (DvdSys.pushRun_history m (c, calls ++ extra))
  unfold DvdSys.pushRun at hinv hnumbers ⊢
  dsimp only at hinv hnumbers ⊢
  constructor
  case inv => exact hinv
  case numbers => exact hnumbers
  case calm =>
    rw [DvdSys.push_core]
    exact hcalm
  case keeps =>
    intro call hm
    rw [htodo] at hm
    rcases List.mem_append.1 hm with hm | hm
    · exact (List.mem_append.1 hm).elim (hcalls call) (hkeeps call)
    · rcases List.mem_append.1 hm with hm | hm
      · rw [hback call hm]
        rfl
      · exact h.keeps call hm
  case ends =>
    intro x hx
    rw [husers] at hx
    rw [DvdSys.push_core]
    rcases List.mem_append.1 hx with hx | hx
    · obtain ⟨rfl, ho⟩ := hover x hx
      exact ho
    · have hxb : x ≠ b := fun e => h.mid.runs.2 (e ▸ hx)
      show (c.blocks x).state.over = true
      rw [hothers x hxb]
      exact h.ends x hx
  case done =>
    rw [DvdSys.push_done]
    exact h.done
  case held =>
    intro x hx
    rw [DvdSys.push_pending] at hx
    rw [DvdSys.push_waitingqueue, DvdSys.push_core, husers]
    by_cases hxb : x = b
    · rw [hxb]
      exact .inr (hexec.imp_right (List.mem_append_left _))
    · exact (h.held x hxb hx).imp_right fun hm => .inr (List.mem_append_right _ hm)

theorem DvdSys.history_eq (h : s'.history = s.history) : s'.pending = s.pending ∧ s'.done = s.done := by
  simp only [DvdSys.history, Prod.mk.injEq] at h
  exact ⟨h.2.2.1, h.2.2.2⟩

theorem DvdSound.frame (h : DvdSound s) (hinv : DvdInv True s') (hblocks : s'.core.blocks = s.core.blocks)
    (hexec : ∀ x, s.core.executing = .block x → s'.core.executing = .block x) (hcalm : s'.core.calm)
    (hqueue : s'.waitingqueue = s.waitingqueue) (htodo : ∀ call ∈ s'.todo, call ∈ s.todo ∨ call.keeps = true) (husers : dvdUsers s'.todo = dvdUsers s.todo) (hhist : s'.history = s.history) :
    DvdSound s' := by
  obtain ⟨hpend, hdone⟩ := DvdSys.history_eq hhist
  constructor
  case inv => exact hinv
  case numbers => exact h.numbers.congr hhist
  case calm => exact hcalm
  case keeps => exact fun call hm => (htodo call hm).elim (h.keeps call) id
  case ends =>
    rw [husers, hblocks]
    exact h.ends
  case done =>
    rw [hdone]
    exact h.done
  case held =>
    rw [hpend, hqueue, husers]
    exact fun x hx => (h.held x hx).imp_right (Or.imp_left (hexec x))

/-- What `__dvd_stateready` is called with: the last block, if any, is over. -/
theorem DvdSound.stateready (h : DvdSound s.cleared) : DvdSound s.stateready := by
  rcases h.inv.stateready_cases with ⟨-, heq⟩ | ⟨-, heq⟩ | ⟨p, b, rest, calls, extra, hq, -, -, hextra, hmid, c, hout, heq⟩
  · rw [heq]
    exact h
  · have hinv := h.inv.stateready fun _ => h.calm.2
    rw [heq] at hinv ⊢
    exact h.frame hinv rfl (fun _ hx => hx) h.calm rfl (fun _ hm => .inl hm) rfl rfl
  · rw [heq]
    have hsound : DvdSoundMid b (s.core.starting b) (s.starting p b rest) := by
      refine ⟨hmid, h.numbers.congr rfl, h.calm, h.keeps, h.ends, h.done, fun x hxb hx => ?_⟩
      rcases h.held x hx with ⟨p', hm⟩ | e | hm
      · refine .inl ⟨p', ?_⟩
        by_cases hp : p' = p
        · subst hp
          rw [show (s.starting p' b rest).waitingqueue p' = rest from Function.update_self ..]
          rw [show s.cleared.waitingqueue p' = _ from hq] at hm
          exact (List.mem_cons.1 hm).resolve_left hxb
        · rw [show (s.starting p b rest).waitingqueue p' = _ from Function.update_of_ne hp ..]
          exact hm
      · cases e
      · exact .inr hm
    exact hsound.outcome (hout True False (fun _ => h.calm.2) False.elim) fun call hm => .inl (hextra call hm)

theorem DvdSound.issuecommand (h : DvdSound s) (hi : s.idle = true ∨ s.user = true) (hpend : s.pending b = false) {blk : DvdBlock}
    (hv : blk.valid) (prio : Fin 4) : DvdSound (s.issuecommand prio b blk) := by
  have henq : DvdSound (s.enqueued prio b blk) := by
    have hinv := h.inv.enqueued (h.inv.noLow hi) hpend hv prio
    have hsub : ∀ p x, x ∈ s.waitingqueue p → x ∈ (s.enqueued prio b blk).waitingqueue p := by
      intro p x hx
      by_cases hp : p = prio
      · subst hp
        rw [show (s.enqueued p b blk).waitingqueue p = _ from Function.update_self ..]
        exact List.mem_append_left _ hx
      · rw [show (s.enqueued prio b blk).waitingqueue p = _ from Function.update_of_ne hp ..]
        exact hx
    constructor
    case inv => exact hinv
    case numbers => exact h.numbers.enqueued prio b blk
    case calm => exact h.calm
    case keeps => exact h.keeps
    case ends =>
      intro x hx
      have hxb : x ≠ b := by
        rintro rfl
        have hp := h.inv.called x hx
        rw [hpend] at hp
        cases hp
      rw [show (s.enqueued prio b blk).core.blocks x = _ from Function.update_of_ne hxb ..]
      exact h.ends x hx
    case done => exact h.done
    case held =>
      intro x hx
      by_cases hxb : x = b
      · refine .inl ⟨prio, ?_⟩
        rw [show (s.enqueued prio b blk).waitingqueue prio = _ from Function.update_self .., hxb]
        exact List.mem_append_right _ (List.mem_singleton_self b)
      · rw [show (s.enqueued prio b blk).pending x = _ from Function.update_of_ne hxb ..] at hx
        exact (h.held x hx).imp_left fun ⟨p, hm⟩ => ⟨p, hsub p x hm⟩
  rw [DvdSys.issuecommand_eq]
  split
  case isTrue hnull =>
    apply DvdSound.stateready
    have hinv := henq.inv.cleared hnull.1
    exact henq.frame hinv rfl (fun x hx => by cases hnull.1.symm.trans hx) henq.calm rfl (fun _ hm => .inl hm) rfl rfl
  case isFalse => exact henq

theorem DvdSound.resumes (h : DvdSound s) (hno : dvdNoLow s.todo) : DvdSound s.resume := by
  have hinv := h.inv.resumes hno fun _ => h.calm.2
  unfold DvdSys.resume at hinv ⊢
  dsimp only at hinv ⊢
  split
  case isTrue hp =>
    apply DvdSound.stateready
    have hs : DvdInv True { s with pauseflag := false, pausingflag := false } :=
      h.inv.frame hno hno (.refl h.inv.resume) rfl (fun _ => .refl _) rfl rfl rfl h.inv.errors fun e => by cases e
    exact h.frame (hs.cleared (h.inv.pausing hp).1) rfl (fun x hx => by cases (h.inv.pausing hp).1.symm.trans hx) h.calm rfl
      (fun _ hm => .inl hm) rfl rfl
  case isFalse hp =>
    rw [if_neg hp] at hinv
    exact h.frame hinv rfl (fun _ hx => hx) h.calm rfl (fun _ hm => .inl hm) rfl rfl

theorem DvdSound.of_turned (h : DvdSound s) (ht : DvdTurned True clean s s') : DvdSound s' := by
  have hinv := h.inv.of_turned ht
  cases ht with
  | @idle c₁ extra htaken hcb hno hextra =>
    have hplain : ∀ call ∈ extra, call.plain = true := fun call hm => by rw [hextra call hm]; rfl
    obtain ⟨back, hback, htodo⟩ := DvdSys.push_todo { s with core := c₁ } extra
    have husers := DvdSys.push_users (s := { s with core := c₁ }) extra
    rw [dvdUsers_plain hplain, List.nil_append] at husers
    have hhist := DvdSys.pushRun_history s (c₁, extra)
    unfold DvdSys.pushRun at hinv hhist ⊢
    obtain ⟨regs, low, rfl⟩ := htaken.eq
    refine h.frame hinv ?_ ?_ ?_ (DvdSys.push_waitingqueue _ _) ?_ husers hhist
    · rw [DvdSys.push_core]
    · rw [DvdSys.push_core]
      exact fun _ hx => hx
    · rw [DvdSys.push_core]
      exact h.calm
    · intro call hm
      rw [htodo] at hm
      rcases List.mem_append.1 hm with hm | hm
      · rw [hextra call hm]
        exact .inr rfl
      · rcases List.mem_append.1 hm with hm | hm
        · rw [hback call hm]
          exact .inr rfl
        · exact .inl hm
  | @called b cb c₁ c m result calls extra hc hm htodo hcalled hmid hcall hout hextra hdel =>
    obtain ⟨hmem, husers⟩ := dvdTodo_mem htodo
    obtain ⟨regs, low, rfl⟩ := hc
    obtain ⟨delivered, todo, user, rfl⟩ := hm
    have hsound : DvdSoundMid b { s.core with regs := regs, low := low } { s with delivered := delivered, todo := todo, user := user } := by
      refine ⟨hmid, h.numbers.congr rfl, h.calm, fun call hm => h.keeps call (hmem call hm), ?_, h.done, fun x hxb hx => ?_⟩
      · rw [husers]
        exact h.ends
      · rw [husers]
        refine (h.held x hx).imp_right fun hx' => hx'.resolve_left fun e => hxb ?_
        exact DvdExec.block.inj (e.symm.trans hcalled.executing)
    exact hsound.outcome hout fun call hm => .inr (hextra call hm)

theorem DvdSound.tail (h : DvdSound s) (htodo : s.todo = call :: rest) :
    call.keeps = true ∧ ∀ call' ∈ rest, call' ∈ s.todo ∨ call'.keeps = true := by
  constructor
  · refine h.keeps call ?_
    rw [htodo]
    exact List.mem_cons_self
  · intro call' hm
    rw [htodo]
    exact .inl (List.mem_cons_of_mem _ hm)

theorem DvdSound.calledBack (h : DvdSound s) {result : Int} (htodo : s.todo = .user (.block b) result :: rest) :
    DvdSound ((s.popped rest).calledBack b result) := by
  have husers : dvdUsers s.todo = b :: dvdUsers rest := by
    rw [htodo]
    rfl
  have hmem : b ∈ dvdUsers s.todo := by
    rw [husers]
    exact List.mem_cons_self
  constructor
  case inv => exact h.inv.calledBack htodo
  case numbers => exact DvdNumbers.calledBack (s := s.popped rest) (h.numbers.congr rfl) (h.inv.called b hmem) result
  case calm => exact h.calm
  case keeps =>
    intro call hm
    refine h.keeps call ?_
    rw [htodo]
    exact List.mem_cons_of_mem _ hm
  case ends =>
    intro x hx
    refine h.ends x ?_
    rw [husers]
    exact List.mem_cons_of_mem _ hx
  case done =>
    intro d hd
    rcases List.mem_append.1 hd with hd | hd
    · exact h.done d hd
    · rw [List.mem_singleton.1 hd]
      exact h.ends b hmem
  case held =>
    intro x hx
    have hxb : x ≠ b := by
      rintro rfl
      rw [show ((s.popped rest).calledBack x result).pending x = false from Function.update_self ..] at hx
      cases hx
    have hheld := h.held x ((Function.update_of_ne hxb ..).symm.trans hx)
    rw [husers] at hheld
    exact hheld.imp_right (Or.imp_right fun hm => (List.mem_cons.1 hm).resolve_left hxb)

theorem DvdSound.popped (h : DvdSound s) (htodo : s.todo = call :: rest) (hcall : call.passes = true) : DvdSound (s.popped rest) := by
  refine h.frame (h.inv.popped htodo hcall) rfl (fun _ hx => hx) h.calm rfl (h.tail htodo).2 ?_ rfl
  rw [htodo, dvdUsers_cons_passes hcall]
  rfl

theorem DvdSound.answer (h : DvdSound s) (hno : dvdNoLow s.todo) (id : Option Nat) : DvdSound (s.answer id) := by
  have hinv := h.inv.answer hno id
  cases id with
  | none => exact h
  | some id => exact h.frame hinv rfl (fun _ hx => hx) h.calm rfl (fun _ hm => .inl hm) rfl rfl

theorem DvdSound.run (h : DvdSound s) (hlow : ∀ cb result rest, s.todo ≠ .low cb result :: rest) : DvdSound s.run := by
  have hinv := h.inv.run (fun _ => h.calm.2) hlow
  cases htodo : s.todo with
  | nil =>
    have hnext : s.run = { s with user := false } := by
      unfold DvdSys.run
      rw [htodo]
    rw [hnext] at hinv ⊢
    exact h.frame hinv rfl (fun _ hx => hx) h.calm rfl (fun _ hm => .inl hm) rfl rfl
  | cons call rest =>
    rw [DvdSys.run_eq htodo] at hinv ⊢
    obtain ⟨hkeeps, hrest⟩ := h.tail htodo
    have hno' := h.inv.tail_noLow htodo
    cases call with
    | clearwaitingqueue => cases hkeeps
    | cancelAll id => cases hkeeps
    | user e result =>
      cases e with
      | block b => exact h.calledBack htodo
      | null => exact h.popped htodo rfl
      | dummy => exact h.popped htodo rfl
    | cancelcb e => exact (h.popped htodo rfl).answer hno' _
    | errorcancel e =>
      -- nothing is cancelled
      have hnext : (s.popped rest).runCall (.errorcancel e) = s.popped rest := by
        unfold DvdSys.runCall
        exact if_neg fun hc => Bool.noConfusion (h.calm.1.symm.trans hc)
      rw [hnext]
      exact h.popped htodo rfl
    | mountcb e =>
      have hpop := h.popped htodo rfl
      exact hpop.frame hinv rfl (fun _ hx => hx) h.calm rfl (fun _ hm => .inl hm) rfl rfl
    | stateready =>
      obtain ⟨hdummy, -⟩ := h.inv.ready_dummy htodo
      refine DvdSound.stateready (h.frame (h.inv.ready htodo) rfl (fun x hx => by cases hdummy.symm.trans hx) h.calm rfl hrest ?_ rfl)
      rw [htodo]
      rfl
    | low cb result => exact absurd htodo (hlow cb result rest)
    | resumed =>
      have hpop := h.popped htodo rfl
      exact hpop.frame hinv rfl (fun _ hx => hx) ⟨h.calm.1, rfl⟩ rfl (fun _ hm => .inl hm) rfl rfl
    | unbreak =>
      have hpop := h.popped htodo rfl
      exact hpop.frame hinv rfl (fun _ hx => hx) h.calm rfl (fun _ hm => .inl hm) rfl rfl
    | cb id e => exact (h.popped htodo rfl).answer hno' id
    | resume => exact (h.popped htodo rfl).resumes hno'
    | back =>
      have hpop := h.popped htodo rfl
      exact hpop.frame hinv rfl (fun _ hx => hx) h.calm rfl (fun _ hm => .inl hm) rfl rfl

/-- **Every step without a cancel** keeps it, if the engine goes on as it should. -/
theorem DvdSound.next (h : DvdSound s) {e : DvdEvent B} (he : dvdGuard s e) (hun : dvdUncancelled e) (hgoes : dvdGoesOn s e) :
    DvdSound (dvdNext s e) := by
  have hturned : e.turns s → DvdSound (dvdNext s e) := by
    intro hturns
    have ht : DvdTurned True False s (dvdNext s e) := h.inv.turned he hturns (fun _ => ⟨hgoes, h.calm.1⟩) False.elim
    exact h.of_turned ht
  cases e with
  | issue prio b blk => exact h.issuecommand he.1 he.2.1 ⟨he.2.2.1, he.2.2.2.1⟩ prio
  | pause => exact h.frame (h.inv.pause (h.inv.noLow he)) rfl (fun _ hx => hx) h.calm rfl (fun _ hm => .inl hm) rfl rfl
  | resume => exact h.resumes (h.inv.noLow he)
  | cancel b id => exact hun.elim
  | cancelAll id => exact hun.elim
  | run =>
    by_cases hlow : ∃ cb result rest, s.todo = .low cb result :: rest
    · exact hturned hlow
    · exact h.run fun cb result rest e => hlow ⟨cb, result, rest, e⟩
  | _ => exact hturned trivial

theorem dvdSound_init (drive : DvdDrive) : DvdSound (dvdInit (B := B) drive) where
  inv := dvdInv_init drive
  numbers := dvdNumbers_init drive
  calm := ⟨rfl, rfl⟩
  keeps := fun call hm => by cases hm
  ends := fun x hx => by cases hx
  done := fun d hd => by cases hd
  held := fun x hx => by cases hx

end Sound

/-! ## Each block is completed once -/

/-- A block's callback runs at most once, with a block that is over; between events the block that executes is under way. -/
structure DvdOnce (s : DvdSys B) : Prop where
  once : (s.done.map DvdDone.number).Nodup
  finished : ∀ d ∈ s.done, d.number < s.issued ∧ d.blk.state.over = true
  outstanding : s.idle = true → ∀ b, s.core.executing = .block b → s.core.low.callback ≠ none ∧ s.core.low.command ≠ none
  held : s.idle = true → ∀ x, s.pending x = true → (∃ p, x ∈ s.waitingqueue p) ∨ s.core.executing = .block x

theorem DvdSound.dvdOnce {s : DvdSys B} (h : DvdSound s) : DvdOnce s where
  once := h.numbers.nodup
  finished d hd := ⟨(h.numbers.done d hd).1, h.done d hd⟩
  outstanding hi b hb := by
    cases h.inv.steady (h.inv.noLow (.inl hi)) hb with
    | waits cb hw =>
      refine ⟨?_, DvdWaiting.command hw⟩
      rw [hw.callback]
      exact Option.some_ne_none _
    | stuck _ hok => exact absurd trivial hok
  held hi x hx := by
    have hnil : s.todo = [] := by
      unfold DvdSys.idle at hi
      rw [Bool.and_eq_true] at hi
      exact List.isEmpty_iff.1 hi.1
    refine (h.held x hx).imp_right fun hx' => hx'.resolve_right fun hm => ?_
    rw [hnil] at hm
    cases hm

/-- A step of an engine without cancels, in which a callback goes on as it should. -/
def dvdSteady (s : DvdSys B) (e : DvdEvent B) : Prop := dvdUncancelled e ∧ dvdGoesOn s e

instance (s : DvdSys B) (e : DvdEvent B) : Decidable (dvdSteady s e) := inferInstanceAs (Decidable (_ ∧ _))

/-- **Every block is completed once**: in every run in which each callback goes on as it should. -/
theorem dvd_completed_once (drive : DvdDrive) {es : List (DvdEvent B)} (hl : (dvdSystem.restrict dvdSteady).Legal (dvdInit (B := B) drive) es) :
    DvdOnce (dvdSystem.run (dvdInit drive) es) := by
  have hstep : ∀ (s : DvdSys B) e, DvdSound s → (dvdSystem.restrict dvdSteady).enabled s e → DvdSound (dvdNext s e) :=
    fun s e hs he => hs.next he.1 he.2.1 he.2.2
  exact (hl.invariant hstep (dvdSound_init drive)).dvdOnce

/-- A drive that is reset and known. -/
def dvdDrive0 : DvdDrive := ⟨false, false, false, true, true, false, 0, 0, false, 0, 0, 0, 0, true, false, 0⟩

def dvdRegs0 : DvdRegs := ⟨0, 0, false, true, true, true⟩

/-- `DVD_ReadAsync` of 64 bytes. -/
def dvdRead0 : DvdBlock := ⟨4, 0x80000000, 64, 0, 0, 0, .END⟩

theorem dvd_completed_once_read :
    DvdOnce (dvdSystem.run (dvdInit (B := Unit) dvdDrive0) [.issue 2 () dvdRead0, .interrupt false dvdRegs0, .run, .run, .run]) :=
  dvd_completed_once dvdDrive0 (by decide)

/-- A read whose error says that there is no disc waits for the cover, which ends it while its state is that the cover is closed. -/
theorem dvd_completion_not_over :
    ¬ ∀ (drive : DvdDrive) (es : List (DvdEvent Unit)), (dvdSystem.restrict fun _ e => dvdUncancelled e).Legal (dvdInit drive) es →
      DvdOnce (dvdSystem.run (dvdInit drive) es) := by
  intro h
  have hdone := (h dvdDrive0 [.issue 2 () dvdRead0, .interrupt true { dvdRegs0 with residual := 64 }, .run,
    .interrupt false { dvdRegs0 with error := 0x03023a00 }, .run, .cover dvdRegs0, .run, .run] (by decide)).finished
  exact absurd hdone (by decide)

end Libogc
