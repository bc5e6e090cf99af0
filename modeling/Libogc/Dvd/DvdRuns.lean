import Libogc.Dvd.DvdInv
/-!
# DvdRuns — what every run of the engine keeps

Every step keeps the invariant (`DvdInv.next`).  For the laws that say more, it is told apart what a step can do: `__dvd_stateready`
(`stateready_cases`), a callback (`DvdTurned`), and `DVD_CancelAsync` (`cancelAsync_cases`).
-/
namespace Libogc

open Runs

set_option linter.unusedSectionVars false

variable {B : Type} [DecidableEq B]

section Steps
variable {ok : Prop} {s s' : DvdSys B} {b : B} {cb : DvdLow} {c : DvdCore B}

theorem DvdInv.steady (h : DvdInv ok s) (hno : dvdNoLow s.todo) (hexec : s.core.executing = .block b) : DvdSteady ok b s.core := by
  rcases h.live b hexec with ⟨hst, -⟩ | ⟨cb, rest, hf⟩
  · exact hst
  · exact absurd (by rw [hf.todo]; exact List.mem_cons_self) (hno cb 1)

theorem DvdInv.notWaiting (h : DvdInv ok s) (hexec : s.core.executing = .block b) : (s.core.blocks b).state ≠ .WAITING := by
  intro e
  rcases h.live b hexec with ⟨hst, -⟩ | ⟨cb, rest, hf⟩
  · have hlive := hst.live
    rw [e] at hlive
    cases hlive
  · exact hf.inside.notWaiting e

theorem DvdInv.frame (h : DvdInv ok s) (hno : dvdNoLow s.todo) (hno' : dvdNoLow s'.todo) (hframe : DvdFrame s.core s'.core)
    (hblocks : s'.core.blocks = s.core.blocks) (hqueue : ∀ p, (s'.waitingqueue p).Sublist (s.waitingqueue p))
    (husers : dvdUsers s'.todo = dvdUsers s.todo) (hreadies : dvdReadies s'.todo = dvdReadies s.todo)
    (hpend : s'.pending = s.pending) (herrors : dvdErrorsFirst s'.todo) (hpausing : s'.pausingflag = true → s'.core.executing = .null ∧ s'.pauseflag = true) :
    DvdInv ok s' := by
  have hexec := hframe.executing
  constructor
  case live =>
    intro b hb
    exact .inl ⟨hframe.steady (congrFun hblocks b) (h.steady hno (hexec.symm.trans hb)), hno'⟩
  case rests =>
    intro hno₁
    rw [hexec] at hno₁
    obtain ⟨h1, h2, h3, h4, -⟩ := h.rests hno₁
    obtain ⟨stop, brk, hlow⟩ := hframe.low
    rw [hlow]
    exact ⟨h1, h2, h3, h4, hno'⟩
  case readies => rw [hreadies, h.readies, hexec]
  case resume => exact hframe.resume
  case dummy => rw [hframe.dummy, h.dummy]
  case runs =>
    intro b hb
    rw [hpend, husers]
    exact h.runs b (hexec.symm.trans hb)
  case cover =>
    intro x hx
    rw [hblocks] at hx
    rw [hexec]
    exact h.cover x hx
  case queued =>
    intro p x hx
    rw [hblocks]
    exact h.queued p x ((hqueue p).subset hx)
  case once => exact h.once.sublist hqueue
  case waiting =>
    intro x hx
    rw [hblocks] at hx ⊢
    rw [hpend, husers]
    exact h.waiting x hx
  case users => rw [husers]; exact h.users
  case called =>
    intro x hx
    rw [husers] at hx
    rw [hpend]
    exact h.called x hx
  case pausing => exact hpausing
  case errors => exact herrors

/-! ## A block is issued, and the next one is started -/

/-- The block is put in its queue. -/
def DvdSys.enqueued (s : DvdSys B) (prio : Fin 4) (b : B) (blk : DvdBlock) : DvdSys B :=
  { s with core := { s.core with blocks := Function.update s.core.blocks b { blk with state := .WAITING } }
           waitingqueue := Function.update s.waitingqueue prio (s.waitingqueue prio ++ [b])
           issued := s.issued + 1
           number := Function.update s.number b s.issued
           pending := Function.update s.pending b true
           delivered := Function.update s.delivered b 0 }

theorem DvdSys.issuecommand_eq (s : DvdSys B) (prio : Fin 4) (b : B) (blk : DvdBlock) :
    s.issuecommand prio b blk =
      if s.core.executing = .null ∧ !s.pauseflag then (s.enqueued prio b blk).stateready else s.enqueued prio b blk := rfl

theorem DvdInv.enqueued (h : DvdInv ok s) (hno : dvdNoLow s.todo) (hpend : s.pending b = false) {blk : DvdBlock} (hv : blk.valid)
    (prio : Fin 4) : DvdInv ok (s.enqueued prio b blk) := by
  have hself : (s.enqueued prio b blk).core.blocks b = { blk with state := .WAITING } := Function.update_self ..
  have hne : ∀ x, x ≠ b → (s.enqueued prio b blk).core.blocks x = s.core.blocks x := fun x hx => Function.update_of_ne hx ..
  have hpne : ∀ x, s.pending x = true → x ≠ b := by
    rintro x hx rfl
    rw [hpend] at hx
    cases hx
  have hpmono : ∀ x, s.pending x = true → (s.enqueued prio b blk).pending x = true := by
    intro x hx
    exact (Function.update_of_ne (hpne x hx) ..).trans hx
  have hqb : ∀ p, b ∉ s.waitingqueue p := fun p hm => hpne b (h.waiting b (h.queued p b hm)).1 rfl
  constructor
  case live =>
    intro x hx
    have hxb := hpne x (h.runs x hx).1
    refine .inl ⟨DvdFrame.steady ?_ (hne x hxb) (h.steady hno hx), hno⟩
    exact ⟨rfl, rfl, rfl, rfl, rfl, ⟨_, _, rfl⟩, id, h.resume⟩
  case rests => exact h.rests
  case readies => exact h.readies
  case resume => exact h.resume
  case dummy => exact h.dummy
  case runs =>
    intro x hx
    obtain ⟨hp, hu⟩ := h.runs x hx
    exact ⟨hpmono x hp, hu⟩
  case cover =>
    intro x hx
    by_cases hxb : x = b
    · rw [hxb, hself] at hx
      cases hx
    · rw [hne x hxb] at hx
      exact h.cover x hx
  case queued =>
    intro p x hx
    by_cases hxb : x = b
    · rw [hxb, hself]
    · rw [hne x hxb]
      by_cases hp : p = prio
      · subst hp
        rw [show (s.enqueued p b blk).waitingqueue p = _ from Function.update_self ..] at hx
        rcases List.mem_append.1 hx with hx | hx
        · exact h.queued p x hx
        · exact absurd (List.mem_singleton.1 hx) hxb
      · rw [show (s.enqueued prio b blk).waitingqueue p = _ from Function.update_of_ne hp ..] at hx
        exact h.queued p x hx
  case once => exact h.once.append hqb prio
  case waiting =>
    intro x hx
    by_cases hxb : x = b
    · subst hxb
      refine ⟨Function.update_self .., fun hm => hpne x (h.called x hm) rfl, ?_⟩
      rw [hself]
      exact hv
    · rw [hne x hxb] at hx ⊢
      obtain ⟨hp, hu, hvx⟩ := h.waiting x hx
      exact ⟨hpmono x hp, hu, hvx⟩
  case users => exact h.users
  case called => exact fun x hx => hpmono x (h.called x hx)
  case pausing => exact h.pausing
  case errors => exact h.errors

/-- What `__dvd_stateready` starts. -/
def DvdSys.starting (s : DvdSys B) (p : Fin 4) (b : B) (rest : List B) : DvdSys B :=
  { s with waitingqueue := Function.update s.waitingqueue p rest
           starts := s.starts ++ [⟨b, s.pauseflag, p, s.number b, s.waiting⟩] }

/-- The core in which it is started. -/
def DvdCore.starting (c : DvdCore B) (b : B) : DvdCore B := { c with executing := .block b, currcmd := (c.blocks b).cmd }

/-- No block executes. -/
def DvdSys.cleared (s : DvdSys B) : DvdSys B := { s with core := { s.core with executing := .null } }

theorem DvdInv.starting (h : DvdInv ok s.cleared) {p : Fin 4} {rest : List B} (hq : s.waitingqueue p = b :: rest)
    (hpause : s.pauseflag = false) : DvdMid b (s.core.starting b) (s.starting p b rest) := by
  have hmem : b ∈ s.waitingqueue p := by rw [hq]; exact List.mem_cons_self
  have hwait := h.waiting b (h.queued p b hmem)
  have hnodup := h.once.nodup p
  rw [show s.cleared.waitingqueue p = _ from hq] at hnodup
  have hsub : ∀ p', ((s.starting p b rest).waitingqueue p').Sublist (s.waitingqueue p') := by
    intro p'
    by_cases hp : p' = p
    · subst hp
      rw [show (s.starting p' b rest).waitingqueue p' = rest from Function.update_self .., hq]
      exact List.sublist_cons_self b rest
    · rw [show (s.starting p b rest).waitingqueue p' = _ from Function.update_of_ne hp ..]
  constructor
  case noLow => exact (h.rests fun _ e => by cases e).2.2.2.2
  case readies => exact h.readies
  case dummy => exact h.dummy
  case runs => exact ⟨hwait.1, hwait.2.1⟩
  case cover =>
    intro x _
    refine Bool.eq_false_iff.2 fun e => ?_
    cases h.cover x e
  case queued =>
    intro p' x hx
    refine ⟨?_, h.queued p' x ((hsub p').subset hx)⟩
    rintro rfl
    obtain rfl := h.once.one p' p x ((hsub p').subset hx) hmem
    rw [show (s.starting p' x rest).waitingqueue p' = rest from Function.update_self ..] at hx
    exact (List.nodup_cons.1 hnodup).1 hx
  case once => exact h.once.sublist hsub
  case waiting => exact fun x _ hx => h.waiting x hx
  case users => exact h.users
  case called => exact h.called
  case pausing =>
    refine Bool.eq_false_iff.2 fun e => ?_
    rw [show s.pauseflag = true from (h.pausing e).2] at hpause
    cases hpause
  case errors => exact h.errors

/-- **What `__dvd_stateready` does**: it waits for a block or for the engine to be resumed, or it starts the block that comes first. -/
theorem DvdInv.stateready_cases (h : DvdInv ok s.cleared) :
    ((∀ p, s.waitingqueue p = []) ∧ s.stateready = s.cleared) ∨
      (s.pauseflag = true ∧ s.stateready = { s.cleared with pausingflag := true }) ∨
        ∃ p b rest calls extra, s.waitingqueue p = b :: rest ∧ (∀ q, q < p → s.waitingqueue q = []) ∧ s.pauseflag = false ∧
          (∀ call ∈ extra, call = .resumed) ∧ DvdMid b (s.core.starting b) (s.starting p b rest) ∧
          ∃ c, DvdComes (s.core.starting b) b (s.core.blocks b).txdsize (c, calls) ∧
            s.stateready = (s.starting p b rest).pushRun (c, calls ++ extra) := by
  unfold DvdSys.stateready
  cases hcheck : s.checkwaitingqueue with
  | false => exact .inl ⟨s.checkwaitingqueue_eq_false.1 hcheck, rfl⟩
  | true =>
    right
    rw [if_neg (by decide)]
    by_cases hpause : s.pauseflag = true
    · rw [if_pos hpause]
      exact .inl ⟨hpause, rfl⟩
    · right
      rw [if_neg hpause]
      rcases s.popwaitingqueue_cases with ⟨-, hall⟩ | ⟨p, b, rest, hpop, hq, hbefore⟩
      · rw [s.checkwaitingqueue_eq_false.2 hall] at hcheck
        cases hcheck
      · obtain ⟨hcb, halarm, hclosed, hread, hno⟩ := h.rests fun _ e => by cases e
        have hmem : b ∈ s.waitingqueue p := by rw [hq]; exact List.mem_cons_self
        have hwait := h.waiting b (h.queued p b hmem)
        obtain ⟨calls, extra, hcalls, hextra, hout⟩ := DvdSys.startBlock_spec (c := { s.core with executing := .block b })
          rfl hcb halarm hclosed hread hwait.2.2 h.resume
        refine ⟨p, b, rest, calls, extra, hq, hbefore, Bool.eq_false_iff.2 hpause, hextra, ?_, _, hout, ?_⟩
        · exact h.starting hq (Bool.eq_false_iff.2 hpause)
        · rw [hpop]
          show DvdSys.push _ _ = DvdSys.push _ _
          rw [hcalls]
          rfl

theorem DvdInv.stateready (h : DvdInv ok s.cleared) (hres : ok → s.core.resumefromhere = 0) : DvdInv ok s.stateready := by
  rcases h.stateready_cases with ⟨-, heq⟩ | ⟨hpause, heq⟩ | ⟨p, b, rest, calls, extra, -, -, -, hextra, hmid, c, hout, heq⟩
  · rw [heq]
    exact h
  · rw [heq]
    exact ⟨(fun b hb => by cases hb), h.rests, h.readies, h.resume, h.dummy, h.runs, h.cover, h.queued, h.once, h.waiting, h.users,
      h.called, fun _ => ⟨rfl, hpause⟩, h.errors⟩
  · rw [heq]
    exact hmid.outcome (hout ok False hres False.elim) fun call hm => by rw [hextra call hm]; rfl

/-! ## A callback is called -/

theorem DvdInv.mid (h : DvdInv ok s) (hexec : s.core.executing = .block b) {m : DvdSys B} {c : DvdCore B} (hno : dvdNoLow m.todo)
    (hblocks : c.blocks = s.core.blocks) (hdummy : c.dummy = s.core.dummy) (hqueue : m.waitingqueue = s.waitingqueue)
    (husers : dvdUsers m.todo = dvdUsers s.todo) (hreadies : dvdReadies m.todo = dvdReadies s.todo) (herrors : dvdErrorsFirst m.todo)
    (hpend : m.pending = s.pending) (hpausing : m.pausingflag = s.pausingflag) : DvdMid b c m where
  noLow := hno
  readies := by
    rw [hreadies, h.readies, hexec]
    rfl
  dummy := by rw [hdummy, h.dummy]
  runs := by
    rw [husers, hpend]
    exact h.runs b hexec
  cover := by
    intro x hx
    rw [hblocks]
    refine Bool.eq_false_iff.2 fun e => hx ?_
    have hex := h.cover x e
    rw [hexec] at hex
    exact (DvdExec.block.inj hex).symm
  queued := by
    intro p x hx
    rw [hqueue] at hx
    rw [hblocks]
    refine ⟨?_, h.queued p x hx⟩
    rintro rfl
    exact h.notWaiting hexec (h.queued p x hx)
  once := by rw [hqueue]; exact h.once
  waiting := by
    intro x _ hx
    rw [hblocks] at hx ⊢
    rw [husers, hpend]
    exact h.waiting x hx
  users := by rw [husers]; exact h.users
  called := by
    rw [husers, hpend]
    exact h.called
  pausing := by
    rw [hpausing]
    refine Bool.eq_false_iff.2 fun e => ?_
    rw [(h.pausing e).1] at hexec
    cases hexec
  errors := herrors

/-- What the drive says to the driver: the registers, and that a callback is taken from the low level. -/
structure DvdTaken (c c₁ : DvdCore B) : Prop where
  eq : ∃ regs low, c₁ = { c with regs := regs, low := low }
  callback : c₁.low.callback = none
  command : c₁.low.command = none
  alarm : c.low.alarm = false → c₁.low.alarm = false
  closed : c.low.waitcoverclose = false → c₁.low.waitcoverclose = false
  finalunlockcb : c₁.low.finalunlockcb = c.low.finalunlockcb
  finalsudcb : c₁.low.finalsudcb = c.low.finalsudcb
  finaladdoncb : c₁.low.finaladdoncb = c.low.finaladdoncb
  finalpatchcb : c₁.low.finalpatchcb = c.low.finalpatchcb
  finaloffsetcb : c₁.low.finaloffsetcb = c.low.finaloffsetcb

variable {c₁ : DvdCore B} {t : Nat} {rest : List (DvdCall B)} {call : DvdCall B}

theorem DvdTaken.ready (h : DvdTaken c c₁) (hr : c.Ready cb) : c₁.Ready cb := by
  obtain ⟨⟨regs, low, rfl⟩, -, -, -, -, -, hsudcb, haddon, hpatch, hoffset⟩ := h
  dsimp only at hsudcb haddon hpatch hoffset
  have hsud : c.Sud → DvdCore.Sud { c with regs := regs, low := low } := by
    unfold DvdCore.Sud
    dsimp only
    rw [hsudcb]
    exact id
  cases cb with
  | handlespinupcb => exact hsud hr
  | spinupdrivecb => exact hsud hr
  | fwpatchcb => exact ⟨hsud hr.1, hpatch.trans hr.2⟩
  | patchdrivecb => exact ⟨hsud hr.1, hpatch.trans hr.2.1, hr.2.2⟩
  | checkaddonscb => exact ⟨hsud hr.1, haddon.trans hr.2⟩
  | cntrldrivecb => exact ⟨hsudcb.trans hr.1, hr.2⟩
  | setgcmoffsetcb => exact ⟨hoffset.trans hr.1, hr.2⟩
  | _ => exact hr

theorem DvdTaken.waits (h : DvdTaken c c₁) (hw : c.Waits cb) : c₁.Waits cb := by
  cases cb with
  | unlockdrivecb =>
    obtain ⟨f, hf, hquiet, hread, hr⟩ := hw
    exact ⟨f, h.finalunlockcb.trans hf, hquiet, hread, h.ready hr⟩
  | _ => exact DvdCore.waits_of_ready (h.ready hw)

theorem DvdTaken.called (h : DvdTaken c c₁) (hw : DvdWaiting ok c b t cb c) (halarm : c₁.low.alarm = false)
    (hclosed : c₁.low.waitcoverclose = false) (hstop : cb = .unlockdrivecb ∨ cb = .patchdrivecb → c₁.low.stopnextint = false) :
    DvdCalled ok b cb c₁ := by
  have hwaits := h.waits hw.waits
  have hcallback := h.callback
  have hread : c₁.low.reads = false := by
    unfold DvdLowLevel.reads
    rw [h.command]
  obtain ⟨regs, low, rfl⟩ := h.eq
  exact ⟨hw.executing, hw.currcmd, hcallback, halarm, hclosed, hread, (DvdWaiting.cover hw :), (DvdWaiting.live hw :), (DvdWaiting.disk hw :), hw.range, hw.last, hwaits,
    hstop, hw.resume.1⟩

theorem DvdFinal.called (h : DvdFinal ok b cb rest s) : DvdCalled ok b cb s.core := by
  have hin := h.inside
  refine ⟨hin.executing, hin.currcmd, hin.callback, hin.alarm, hin.closed, hin.noRead, ?_, hin.live, hin.disk, hin.range, hin.last,
    DvdCore.waits_of_ready h.ready, fun e => absurd ?_ h.quiet, hin.resume.1⟩
  · rw [hin.cover]
    exact ⟨(fun e => by cases e), fun e => absurd (.inr (.inr e)) h.quiet⟩
  · exact e.imp_right .inl

/-- The engine after a callback of the low level, if there is one. -/
def DvdSys.turn (s : DvdSys B) (c₁ : DvdCore B) (result : Nat) (extra : List (DvdCall B)) : DvdSys B :=
  match s.core.low.callback with
  | some cb => s.pushRun ((c₁.call cb result).1, (c₁.call cb result).2 ++ extra)
  | none => s.pushRun (c₁, extra)

theorem DvdInv.turn_none (h : DvdInv ok s) (hno : dvdNoLow s.todo) (ht : DvdTaken s.core c₁) (hcb : s.core.low.callback = none)
    {extra : List (DvdCall B)} (hextra : ∀ call ∈ extra, call.plain = true) : DvdInv ok (s.pushRun (c₁, extra)) := by
  have hcallback := ht.callback
  have halarm := ht.alarm
  have hclosed := ht.closed
  have hread : c₁.low.reads = false := by
    unfold DvdLowLevel.reads
    rw [ht.command]
  obtain ⟨regs, low, rfl⟩ := ht.eq
  unfold DvdSys.pushRun
  have husers := DvdSys.push_users (s := { s with core := { s.core with regs := regs, low := low } }) extra
  have hreadies := DvdSys.push_readies (s := { s with core := { s.core with regs := regs, low := low } }) extra
  have hnolow := DvdSys.push_noLow (s := { s with core := { s.core with regs := regs, low := low } }) extra
  rw [dvdUsers_plain hextra, List.nil_append] at husers
  rw [dvdReadies_plain hextra, Nat.zero_add] at hreadies
  have hno' := hnolow.2 ⟨dvdNoLow_plain hextra, hno⟩
  have herrors := DvdSys.push_errorsFirst (s := { s with core := { s.core with regs := regs, low := low } }) extra (dvdErrorsFirst_plain hextra)
    h.errors
  obtain ⟨todo, user, heq⟩ := DvdSys.push_eq { s with core := { s.core with regs := regs, low := low } } extra
  dsimp only
  rw [heq] at husers hreadies hno' herrors ⊢
  dsimp only at husers hreadies hno' herrors ⊢
  constructor
  case live =>
    intro b hb
    refine .inl ⟨?_, hno'⟩
    cases h.steady hno hb with
    | waits cb hw =>
      rw [hw.callback] at hcb
      cases hcb
    | stuck hin hok =>
      refine .stuck ?_ hok
      exact { toDvdAt := ⟨hin.executing, fun _ _ => rfl, rfl, rfl, rfl, rfl, fun _ => rfl, hin.currcmd, rfl, rfl, rfl, hin.resume.1, fun _ => Nat.le_refl _⟩
              callback := hcallback, alarm := halarm hin.alarm, closed := hclosed hin.closed, noRead := hread, cover := hin.cover, live := hin.live, disk := hin.disk
              range := hin.range, last := hin.last }
  case rests =>
    intro hnone
    obtain ⟨-, ha, hc, -, -⟩ := h.rests hnone
    exact ⟨hcallback, halarm ha, hclosed hc, hread, hno'⟩
  case readies =>
    show dvdReadies todo = _
    rw [hreadies]
    exact h.readies
  case resume => exact h.resume
  case dummy => exact h.dummy
  case runs =>
    intro b hb
    show s.pending b = true ∧ b ∉ dvdUsers todo
    rw [husers]
    exact h.runs b hb
  case cover => exact h.cover
  case queued => exact h.queued
  case once => exact h.once
  case waiting =>
    intro x hx
    show s.pending x = true ∧ x ∉ dvdUsers todo ∧ _
    rw [husers]
    exact h.waiting x hx
  case users =>
    show (dvdUsers todo).Nodup
    rw [husers]
    exact h.users
  case called =>
    intro x hx
    rw [show dvdUsers _ = _ from husers] at hx
    exact h.called x hx
  case pausing => exact h.pausing
  case errors => exact herrors

theorem DvdInv.turn_cases (h : DvdInv ok s) (hno : dvdNoLow s.todo) (ht : DvdTaken s.core c₁)
    (hal : ∀ b cb t, DvdWaiting ok s.core b t cb s.core → c₁.low.alarm = false ∧ c₁.low.waitcoverclose = false ∧ (cb = .unlockdrivecb ∨ cb = .patchdrivecb → c₁.low.stopnextint = false)) :
    s.core.low.callback = none ∨
      ∃ b cb, s.core.low.callback = some cb ∧ DvdWaiting ok s.core b (s.core.blocks b).txdsize cb s.core ∧ DvdCalled ok b cb c₁ ∧
        DvdMid b c₁ s := by
  cases hcb : s.core.low.callback with
  | none => exact .inl rfl
  | some cb =>
    right
    cases hexec : s.core.executing with
    | block b =>
      cases h.steady hno hexec with
      | stuck hin _ =>
        rw [hin.callback] at hcb
        cases hcb
      | waits cb' hw =>
        obtain rfl : cb' = cb := Option.some.inj (hw.callback.symm.trans hcb)
        obtain ⟨halarm, hclosed, hstop⟩ := hal b cb' _ hw
        refine ⟨b, cb', rfl, hw, ht.called hw halarm hclosed hstop, ?_⟩
        obtain ⟨regs, low, rfl⟩ := ht.eq
        exact h.mid hexec hno rfl rfl rfl rfl rfl h.errors rfl rfl
    | null =>
      rw [(h.rests fun b e => by rw [hexec] at e; cases e).1] at hcb
      cases hcb
    | dummy =>
      rw [(h.rests fun b e => by rw [hexec] at e; cases e).1] at hcb
      cases hcb

/-- The core that the interrupt handler calls with. -/
def DvdCore.interrupted (c : DvdCore B) (regs : DvdRegs) : DvdCore B :=
  { c with regs := regs
           low := { c.low with lastcmdwasread := false, stopnextint := false, alarm := false, command := none, callback := none } }

def DvdCore.covered (c : DvdCore B) (regs : DvdRegs) : DvdCore B :=
  { c with regs := regs
           low := { c.low with lastcmdwasread := false, stopnextint := false, waitcoverclose := false, command := none
                               callback := none } }

def DvdCore.timedOut (c : DvdCore B) (regs : DvdRegs) : DvdCore B :=
  { c with regs := regs, low := { c.low with alarm := false, command := none, callback := none } }

/-- What the drive delivers when a command is done. -/
def DvdSys.deliver (s : DvdSys B) (residual : Nat) : B → Nat :=
  match s.core.low.command, s.core.executing with
  | some (.read _ len _), .block b => Function.update s.delivered b (s.delivered b + (len - residual))
  | _, _ => s.delivered

/-- What the callback is told. -/
def DvdLowLevel.result (low : DvdLowLevel) (de : Bool) : Nat :=
  (if de then 2 else 1) + if low.lastcmdwasread && low.stopnextint && low.breaking then 8 else 0

theorem DvdSys.interrupt_eq (s : DvdSys B) (de : Bool) (regs : DvdRegs) :
    s.interrupt de regs =
      DvdSys.turn { s with delivered := s.deliver regs.residual } (s.core.interrupted regs) (s.core.low.result de) [.unbreak] := by
  unfold DvdSys.interrupt DvdSys.turn DvdSys.deliver
  dsimp only
  cases hcb : s.core.low.callback <;> rfl

theorem DvdSys.cover_eq (s : DvdSys B) (regs : DvdRegs) : s.cover regs = s.turn (s.core.covered regs) 4 [.unbreak] := by
  unfold DvdSys.cover DvdSys.turn
  cases hcb : s.core.low.callback <;> rfl

theorem DvdSys.timeout_eq (s : DvdSys B) (regs : DvdRegs) : s.timeout regs = s.turn (s.core.timedOut regs) 0x10 [] := by
  unfold DvdSys.timeout DvdSys.turn
  cases hcb : s.core.low.callback with
  | none => rfl
  | some cb =>
    dsimp only
    rw [List.append_nil]
    rfl

theorem DvdCore.interrupted_taken (c : DvdCore B) (regs : DvdRegs) : DvdTaken c (c.interrupted regs) :=
  ⟨⟨_, _, rfl⟩, rfl, rfl, fun _ => rfl, id, rfl, rfl, rfl, rfl, rfl⟩

theorem DvdCore.covered_taken (c : DvdCore B) (regs : DvdRegs) : DvdTaken c (c.covered regs) :=
  ⟨⟨_, _, rfl⟩, rfl, rfl, id, fun _ => rfl, rfl, rfl, rfl, rfl, rfl⟩

theorem DvdCore.timedOut_taken (c : DvdCore B) (regs : DvdRegs) : DvdTaken c (c.timedOut regs) :=
  ⟨⟨_, _, rfl⟩, rfl, rfl, fun _ => rfl, id, rfl, rfl, rfl, rfl, rfl⟩

/-- What is waited for when the drive is done, the cover is closed, or the time is out. -/
theorem DvdWaiting.interrupted (hw : DvdWaiting ok c b t cb c) (regs : DvdRegs) (hcommand : c.low.command ≠ some .waitCoverClose) :
    (c.interrupted regs).low.alarm = false ∧ (c.interrupted regs).low.waitcoverclose = false ∧
      (cb = .unlockdrivecb ∨ cb = .patchdrivecb → (c.interrupted regs).low.stopnextint = false) := by
  refine ⟨rfl, Bool.eq_false_iff.2 fun e => hcommand ?_, fun _ => rfl⟩
  exact (DvdWaiting.closes hw).2 ((DvdWaiting.closed hw).1 e)

theorem DvdWaiting.covered (hw : DvdWaiting ok c b t cb c) (regs : DvdRegs) (hclose : c.low.waitcoverclose = true) :
    (c.covered regs).low.alarm = false ∧ (c.covered regs).low.waitcoverclose = false ∧
      (cb = .unlockdrivecb ∨ cb = .patchdrivecb → (c.covered regs).low.stopnextint = false) :=
  ⟨(DvdWaiting.alarm hw (.inr (.inr ((DvdWaiting.closed hw).1 hclose))) :), rfl, fun _ => rfl⟩

theorem DvdWaiting.timedOut (hw : DvdWaiting ok c b t cb c) (regs : DvdRegs) (halarm : c.low.alarm = true) :
    (c.timedOut regs).low.alarm = false ∧ (c.timedOut regs).low.waitcoverclose = false ∧
      (cb = .unlockdrivecb ∨ cb = .patchdrivecb → (c.timedOut regs).low.stopnextint = false) := by
  have hquiet : ¬ cb.quiet := fun hq => by
    rw [DvdWaiting.alarm hw hq] at halarm
    cases halarm
  refine ⟨rfl, Bool.eq_false_iff.2 fun e => hquiet ?_, fun e => absurd (e.imp_right .inl) hquiet⟩
  exact .inr (.inr ((DvdWaiting.closed hw).1 e))

theorem DvdLowLevel.result_cases (low : DvdLowLevel) (de : Bool) :
    (low.result de &&& 8 ≠ 0 → low.stopnextint = true) ∧ (low.stopnextint = false → low.result de = 1 ∨ low.result de = 2) := by
  unfold DvdLowLevel.result
  cases low.stopnextint <;> cases low.lastcmdwasread <;> cases low.breaking <;> cases de <;> decide

theorem DvdInv.noLow (h : DvdInv ok s) (hi : s.idle = true ∨ s.user = true) : dvdNoLow s.todo := by
  by_cases hexec : ∃ b, s.core.executing = .block b
  · obtain ⟨b, hb⟩ := hexec
    rcases h.live b hb with ⟨-, hno⟩ | ⟨cb, rest, hf⟩
    · exact hno
    · exfalso
      rcases hi with hi | hu
      · unfold DvdSys.idle at hi
        rw [hf.todo] at hi
        cases hi
      · rw [hf.user] at hu
        cases hu
  · exact (h.rests fun b e => hexec ⟨b, e⟩).2.2.2.2

theorem DvdInv.cleared (h : DvdInv ok s) (hexec : s.core.executing = .null) : DvdInv ok s.cleared := by
  unfold DvdSys.cleared
  rw [← hexec]
  exact h

theorem DvdFrame.refl (hres : c.resumefromhere ≤ 7) : DvdFrame c c := ⟨rfl, rfl, rfl, rfl, rfl, ⟨_, _, rfl⟩, id, hres⟩

theorem DvdInv.issuecommand (h : DvdInv ok s) (hi : s.idle = true ∨ s.user = true) (hpend : s.pending b = false) {blk : DvdBlock}
    (hv : blk.valid) (prio : Fin 4) (hres : ok → s.core.resumefromhere = 0) : DvdInv ok (s.issuecommand prio b blk) := by
  have henq := h.enqueued (h.noLow hi) hpend hv prio
  rw [DvdSys.issuecommand_eq]
  split
  case isTrue hnull =>
    exact (henq.cleared hnull.1).stateready hres
  case isFalse => exact henq

theorem DvdInv.pause (h : DvdInv ok s) (hno : dvdNoLow s.todo) : DvdInv ok s.pause := by
  refine h.frame hno hno (.refl h.resume) rfl (fun _ => .refl _) rfl rfl rfl h.errors fun e => ?_
  unfold DvdSys.pause at e ⊢
  dsimp only at e ⊢
  rcases Bool.or_eq_true _ _ ▸ e with e | e
  · exact ⟨(h.pausing e).1, rfl⟩
  · exact ⟨of_decide_eq_true e, rfl⟩

theorem DvdInv.resumes (h : DvdInv ok s) (hno : dvdNoLow s.todo) (hres : ok → s.core.resumefromhere = 0) : DvdInv ok s.resume := by
  unfold DvdSys.resume
  dsimp only
  split
  case isTrue hp =>
    have hs : DvdInv ok { s with pauseflag := false, pausingflag := false } :=
      h.frame hno hno (.refl h.resume) rfl (fun _ => .refl _) rfl rfl rfl h.errors fun e => by cases e
    exact (hs.cleared (h.pausing hp).1).stateready hres
  case isFalse hp =>
    exact h.frame hno hno (.refl h.resume) rfl (fun _ => .refl _) rfl rfl rfl h.errors fun e => absurd e hp

/-! ## A block is cancelled -/

theorem DvdInv.pushPlain (h : DvdInv ok s) (hno : dvdNoLow s.todo) {calls : List (DvdCall B)} (hplain : ∀ call ∈ calls, call.plain = true) :
    DvdInv ok (s.push calls) := by
  have husers := DvdSys.push_users (s := s) calls
  have hreadies := DvdSys.push_readies (s := s) calls
  have hno' := (DvdSys.push_noLow (s := s) calls).2 ⟨dvdNoLow_plain hplain, hno⟩
  have herrors := DvdSys.push_errorsFirst calls (dvdErrorsFirst_plain hplain) h.errors
  rw [dvdUsers_plain hplain, List.nil_append] at husers
  rw [dvdReadies_plain hplain, Nat.zero_add] at hreadies
  obtain ⟨todo, user, heq⟩ := s.push_eq calls
  rw [heq] at husers hreadies hno' herrors ⊢
  exact h.frame hno hno' (.refl h.resume) rfl (fun _ => .refl _) husers hreadies rfl herrors h.pausing

theorem DvdInv.accept (h : DvdInv ok s) (hno : dvdNoLow s.todo) (id : Option Nat) (e : DvdExec B) : DvdInv ok (s.accept id e) :=
  h.frame hno hno (.refl h.resume) rfl (fun _ => .refl _) rfl rfl rfl h.errors h.pausing

/-- A block is told to be cancelled, its calls are made next. -/
def DvdSys.cancelWaiting (s : DvdSys B) (b : B) (id : Option Nat) : DvdSys B :=
  DvdSys.push (DvdSys.accept { s with
    core := { s.core with blocks := Function.update s.core.blocks b { s.core.blocks b with state := .CANCELED } }
    waitingqueue := fun p => (s.waitingqueue p).erase b } id (.block b)) [.user (.block b) DVD_ERROR_CANCELED, .cb id (.block b)]

theorem DvdInv.cancelWaiting (h : DvdInv ok s) (hno : dvdNoLow s.todo) (hst : (s.core.blocks b).state = .WAITING) (id : Option Nat) :
    DvdInv ok (s.cancelWaiting b id) := by
  obtain ⟨hpend, hu, hv⟩ := h.waiting b hst
  have hself : Function.update s.core.blocks b { s.core.blocks b with state := .CANCELED } b =
      { s.core.blocks b with state := .CANCELED } := Function.update_self ..
  have hne : ∀ x, x ≠ b → Function.update s.core.blocks b { s.core.blocks b with state := .CANCELED } x = s.core.blocks x :=
    fun x hx => Function.update_of_ne hx ..
  unfold DvdSys.cancelWaiting DvdSys.accept
  generalize hm : ({ s with
    core := { s.core with blocks := Function.update s.core.blocks b { s.core.blocks b with state := .CANCELED } }
    waitingqueue := fun p => (s.waitingqueue p).erase b } : DvdSys B) = m
  have husers := DvdSys.push_users
    (s := { m with cancels := m.cancels ++ [⟨id, .block b, m.numberOf (.block b), m.goingOf (.block b)⟩] }) [.user (.block b) DVD_ERROR_CANCELED, .cb id (.block b)]
  have hreadies := DvdSys.push_readies
    (s := { m with cancels := m.cancels ++ [⟨id, .block b, m.numberOf (.block b), m.goingOf (.block b)⟩] }) [.user (.block b) DVD_ERROR_CANCELED, .cb id (.block b)]
  have hno' := (DvdSys.push_noLow
    (s := { m with cancels := m.cancels ++ [⟨id, .block b, m.numberOf (.block b), m.goingOf (.block b)⟩] })
      [.user (.block b) DVD_ERROR_CANCELED, .cb id (.block b)]).2 ⟨fun cb r hm => by simp at hm, by subst hm; exact hno⟩
  have herrors := DvdSys.push_errorsFirst (s := { m with cancels := m.cancels ++ [⟨id, .block b, m.numberOf (.block b), m.goingOf (.block b)⟩] })
    [.user (.block b) DVD_ERROR_CANCELED, .cb id (.block b)] trivial (by subst hm; exact h.errors)
  obtain ⟨todo, user, heq⟩ := DvdSys.push_eq { m with cancels := m.cancels ++ [⟨id, .block b, m.numberOf (.block b), m.goingOf (.block b)⟩] }
    [.user (.block b) DVD_ERROR_CANCELED, .cb id (.block b)]
  rw [heq] at husers hreadies hno' herrors ⊢
  subst hm
  have husers' : dvdUsers todo = b :: dvdUsers s.todo := husers
  have hreadies' : dvdReadies todo = dvdReadies s.todo := by
    rw [show dvdReadies todo = _ from hreadies]
    exact Nat.zero_add _
  constructor
  case live =>
    intro x hx
    have hxb : x ≠ b := by
      rintro rfl
      exact h.notWaiting hx hst
    refine .inl ⟨DvdFrame.steady ?_ (hne x hxb) (h.steady hno hx), hno'⟩
    exact ⟨rfl, rfl, rfl, rfl, rfl, ⟨_, _, rfl⟩, fun hstop => hstop, h.resume⟩
  case rests =>
    intro hnone
    obtain ⟨h1, h2, h3, h4, -⟩ := h.rests hnone
    exact ⟨h1, h2, h3, h4, hno'⟩
  case readies =>
    show dvdReadies todo = _
    rw [hreadies']
    exact h.readies
  case resume => exact h.resume
  case dummy => exact h.dummy
  case runs =>
    intro x hx
    obtain ⟨hp, hux⟩ := h.runs x hx
    refine ⟨hp, ?_⟩
    show x ∉ dvdUsers todo
    rw [husers']
    refine fun hm => (List.mem_cons.1 hm).elim ?_ hux
    rintro rfl
    exact h.notWaiting hx hst
  case cover =>
    intro x hx
    have hx' : (Function.update s.core.blocks b { s.core.blocks b with state := .CANCELED } x).state.atCover = true := hx
    by_cases hxb : x = b
    · rw [hxb, hself] at hx'
      cases hx'
    · rw [hne x hxb] at hx'
      exact h.cover x hx'
  case queued =>
    intro p x hx
    have hx' : x ∈ (s.waitingqueue p).erase b := hx
    have hxb : x ≠ b := by
      rintro rfl
      exact ((h.once.nodup p).mem_erase_iff.1 hx').1 rfl
    exact (congrArg DvdBlock.state (hne x hxb)).trans (h.queued p x (List.mem_of_mem_erase hx'))
  case once => exact h.once.sublist fun p => List.erase_sublist
  case waiting =>
    intro x hx
    have hxb : x ≠ b := by
      rintro rfl
      have hx' : (Function.update s.core.blocks x { s.core.blocks x with state := .CANCELED } x).state = .WAITING := hx
      rw [hself] at hx'
      cases hx'
    obtain ⟨hp, hux, hvx⟩ := h.waiting x ((congrArg DvdBlock.state (hne x hxb)).symm.trans hx)
    refine ⟨hp, ?_, ?_⟩
    · show x ∉ dvdUsers todo
      rw [husers']
      exact fun hm => (List.mem_cons.1 hm).elim hxb hux
    · show DvdBlock.valid (Function.update s.core.blocks b { s.core.blocks b with state := .CANCELED } x)
      rw [hne x hxb]
      exact hvx
  case users =>
    show (dvdUsers todo).Nodup
    rw [husers']
    exact List.nodup_cons.2 ⟨hu, h.users⟩
  case called =>
    intro x hx
    rw [show dvdUsers _ = _ from husers'] at hx
    rcases List.mem_cons.1 hx with rfl | hx
    · exact hpend
    · exact h.called x hx
  case pausing => exact h.pausing
  case errors => exact herrors

/-- The block that waits for the cover is told to be cancelled. -/
def DvdCore.cancelCover (c : DvdCore B) (b : B) : DvdCore B :=
  { c with low := { c.low with waitcoverclose := false, callback := none }
           resumefromhere := (DvdSys.resumeOf (c.blocks b).state).getD c.resumefromhere
           executing := .dummy
           blocks := Function.update c.blocks b { c.blocks b with state := .CANCELED } }

def DvdSys.cancelCover (s : DvdSys B) (b : B) (id : Option Nat) : DvdSys B :=
  DvdSys.push (DvdSys.accept { s with core := s.core.cancelCover b } id (.block b))
    [.user (.block b) DVD_ERROR_CANCELED, .cb id (.block b), .stateready]

theorem DvdInv.cancelCover (h : DvdInv ok s) (hno : dvdNoLow s.todo) (hst : (s.core.blocks b).state.atCover = true)
    (id : Option Nat) : DvdInv ok (s.cancelCover b id) := by
  have hexec := h.cover b hst
  have halarm : s.core.low.alarm = false := by
    cases h.steady hno hexec with
    | waits cb hw => exact DvdWaiting.alarm hw (.inr (.inr ((DvdWaiting.cover hw).1 hst)))
    | stuck hin _ => exact hin.alarm
  have hread : (s.core.cancelCover b).low.reads = false := by
    show s.core.low.reads = false
    cases h.steady hno hexec with
    | waits cb hw =>
      unfold DvdLowLevel.reads
      rw [(DvdWaiting.closes hw).2 ((DvdWaiting.cover hw).1 hst)]
    | stuck hin _ => exact hin.noRead
  have hself : (s.core.cancelCover b).blocks b = { s.core.blocks b with state := .CANCELED } := Function.update_self ..
  have hmid : DvdMid b { s.core with resumefromhere := (s.core.cancelCover b).resumefromhere }
      (DvdSys.accept { s with core := s.core.cancelCover b } id (.block b)) :=
    h.mid hexec hno rfl rfl rfl rfl rfl h.errors rfl rfl
  have hres : (DvdSys.resumeOf (s.core.blocks b).state).getD s.core.resumefromhere ≤ 7 := by
    have hle := h.resume
    cases (s.core.blocks b).state <;> first | exact hle | exact Nat.le_of_ble_eq_true rfl
  have haft : DvdAfter { s.core with resumefromhere := (s.core.cancelCover b).resumefromhere } b (s.core.blocks b).txdsize .CANCELED
      s.core.canceling (s.core.cancelCover b) :=
    ⟨rfl, fun x hx => Function.update_of_ne hx .., by rw [hself], by rw [hself], fun _ => by rw [hself], by rw [hself], rfl, rfl, rfl,
      rfl, halarm, rfl, hread, hres, fun _ => Nat.le_refl _⟩
  have hplain : dvdNoLow [DvdCall.user (DvdExec.block b) DVD_ERROR_CANCELED, .cb id (.block b), .stateready] := fun cb r hm => by
    simp at hm
  unfold DvdSys.cancelCover
  generalize hm : DvdSys.accept { s with core := s.core.cancelCover b } id (.block b) = m
  have husers := DvdSys.push_users (s := m) [.user (.block b) DVD_ERROR_CANCELED, .cb id (.block b), .stateready]
  have hreadies := DvdSys.push_readies (s := m) [.user (.block b) DVD_ERROR_CANCELED, .cb id (.block b), .stateready]
  have hno' := (DvdSys.push_noLow (s := m) [.user (.block b) DVD_ERROR_CANCELED, .cb id (.block b), .stateready]).2
    ⟨hplain, by subst hm; exact hno⟩
  have herrors := DvdSys.push_errorsFirst (s := m) [.user (.block b) DVD_ERROR_CANCELED, .cb id (.block b), .stateready] trivial
    (by subst hm; exact h.errors)
  obtain ⟨todo, user, heq⟩ := m.push_eq [.user (.block b) DVD_ERROR_CANCELED, .cb id (.block b), .stateready]
  rw [heq] at husers hreadies hno' herrors ⊢
  subst hm
  refine hmid.ends haft rfl (by decide) husers ?_ hno' herrors
  rw [show dvdReadies todo = _ from hreadies]
  exact congrArg (1 + ·) hmid.readies

/-- What a cancel of the executing block leaves to its callback. -/
def DvdSys.cancelFlag (s : DvdSys B) (e : DvdExec B) (id : Option Nat) (brk : Bool) : DvdSys B :=
  if s.core.canceling then s
  else
    DvdSys.accept { s with core := { s.core with
      canceling := true
      cancelcallback := id
      low := if brk then { s.core.low with stopnextint := true, breaking := true } else s.core.low } } id e

theorem DvdInv.cancelFlag (h : DvdInv ok s) (hno : dvdNoLow s.todo) (e : DvdExec B) (id : Option Nat) (brk : Bool) :
    DvdInv ok (s.cancelFlag e id brk) := by
  unfold DvdSys.cancelFlag
  split
  · exact h
  · refine h.frame hno hno ⟨rfl, rfl, rfl, rfl, rfl, ?_, fun _ _ => rfl, h.resume⟩ rfl (fun _ => .refl _) rfl rfl rfl h.errors h.pausing
    show ∃ stop brk', (if brk then _ else _) = _
    split
    · exact ⟨true, true, rfl⟩
    · exact ⟨_, _, rfl⟩

/-- **What `DVD_CancelAsync` does**, by the state of the block that it names. -/
theorem DvdInv.cancelAsync_cases (h : DvdInv ok s) (hno : dvdNoLow s.todo) (e : DvdExec B) (id : Option Nat) :
    ((s.blockOf e).state = .FATAL_ERROR ∨ (s.blockOf e).state = .END ∨ (s.blockOf e).state = .CANCELED ∨
        (s.blockOf e).state = .COVER_CLOSED ∧ dvdOfDisk s.core.currcmd = true) ∧
        s.cancelAsync e id = (s.accept id e).push [.cb id e] ∨
      ((s.blockOf e).state = .IGNORED ∧ s.cancelAsync e id = s.accept id e) ∨
      (((s.blockOf e).state = .BUSY ∨ (s.blockOf e).state = .COVER_CLOSED ∧ dvdOfDisk s.core.currcmd = false) ∧ ∃ brk, s.cancelAsync e id = s.cancelFlag e id brk) ∨
      (∃ b, e = .block b ∧ (s.core.blocks b).state = .WAITING ∧ s.cancelAsync e id = s.cancelWaiting b id) ∨
      ∃ b, e = .block b ∧ (s.core.blocks b).state.atCover = true ∧ s.cancelAsync e id = s.cancelCover b id := by
  -- one that waits for the cover has its callback
  have hcover : ∀ b, (s.core.blocks b).state.atCover = true → s.core.low.callback = some .statemotorstoppedcb := by
    intro b hb
    cases h.steady hno (h.cover b hb) with
    | waits cb hw => rw [hw.callback, (DvdWaiting.cover hw).1 hb]
    | stuck hin _ =>
      rw [hin.cover] at hb
      cases hb
  have hdummy : (∀ b, e ≠ .block b) → (s.blockOf e).state = .END := by
    intro hne
    cases e with
    | block b => exact absurd rfl (hne b)
    | null => exact h.dummy
    | dummy => exact h.dummy
  unfold DvdSys.cancelAsync
  cases hst : (s.blockOf e).state
  case FATAL_ERROR => exact .inl ⟨.inl rfl, rfl⟩
  case END => exact .inl ⟨.inr (.inl rfl), rfl⟩
  case CANCELED => exact .inl ⟨.inr (.inr (.inl rfl)), rfl⟩
  case IGNORED => exact .inr (.inl ⟨rfl, rfl⟩)
  case BUSY => exact .inr (.inr (.inl ⟨.inl rfl, _, rfl⟩))
  case COVER_CLOSED =>
    dsimp only
    split
    case isTrue hd => exact .inl ⟨.inr (.inr (.inr ⟨rfl, hd⟩)), rfl⟩
    case isFalse hd => exact .inr (.inr (.inl ⟨.inr ⟨rfl, Bool.eq_false_iff.2 hd⟩, false, rfl⟩))
  case WAITING =>
    cases e with
    | block b => exact .inr (.inr (.inr (.inl ⟨b, rfl, hst, rfl⟩)))
    | null =>
      rw [hdummy fun b e => by cases e] at hst
      cases hst
    | dummy =>
      rw [hdummy fun b e => by cases e] at hst
      cases hst
  all_goals
    cases e with
    | block b =>
      have hat : (s.core.blocks b).state.atCover = true := by
        rw [show (s.core.blocks b).state = _ from hst]
        rfl
      refine .inr (.inr (.inr (.inr ⟨b, rfl, hat, ?_⟩)))
      rw [hcover b hat, if_neg (fun e => e rfl)]
      rfl
    | null =>
      rw [hdummy fun b e => by cases e] at hst
      cases hst
    | dummy =>
      rw [hdummy fun b e => by cases e] at hst
      cases hst

theorem DvdInv.cancelAsync (h : DvdInv ok s) (hno : dvdNoLow s.todo) (e : DvdExec B) (id : Option Nat) :
    DvdInv ok (s.cancelAsync e id) := by
  rcases h.cancelAsync_cases hno e id with ⟨-, heq⟩ | ⟨-, heq⟩ | ⟨-, brk, heq⟩ | ⟨b, rfl, hst, heq⟩ | ⟨b, rfl, hst, heq⟩
  · rw [heq]
    exact (h.accept hno id e).pushPlain hno fun call hm => by rw [List.mem_singleton.1 hm]; rfl
  · rw [heq]
    exact h.accept hno id e
  · rw [heq]
    exact h.cancelFlag hno e id brk
  · rw [heq]
    exact h.cancelWaiting hno hst id
  · rw [heq]
    exact h.cancelCover hno hst id

/-! ## A call that was left is made -/

/-- The driver goes on with what is left. -/
def DvdSys.popped (s : DvdSys B) (rest : List (DvdCall B)) : DvdSys B := { s with todo := rest, user := false }

theorem DvdSys.run_eq (htodo : s.todo = call :: rest) : s.run = (s.popped rest).runCall call := by
  unfold DvdSys.run
  rw [htodo]
  rfl

theorem DvdInv.tail_noLow (h : DvdInv ok s) (htodo : s.todo = call :: rest) : dvdNoLow rest := by
  by_cases hexec : ∃ b, s.core.executing = .block b
  · obtain ⟨b, hb⟩ := hexec
    rcases h.live b hb with ⟨-, hno⟩ | ⟨cb, rest', hf⟩
    · rw [htodo] at hno
      exact dvdNoLow_tail hno
    · rw [hf.todo] at htodo
      obtain ⟨-, rfl⟩ := List.cons.inj htodo
      exact hf.noLow
  · have hno := (h.rests fun b e => hexec ⟨b, e⟩).2.2.2.2
    rw [htodo] at hno
    exact dvdNoLow_tail hno

theorem DvdInv.todo_noLow (h : DvdInv ok s) (htodo : s.todo = call :: rest) (hcall : ∀ cb result, call ≠ .low cb result) :
    dvdNoLow s.todo := by
  rw [htodo]
  intro cb r hm
  rcases List.mem_cons.1 hm with e | hm
  · exact hcall cb r e.symm
  · exact h.tail_noLow htodo cb r hm

theorem DvdInv.tail_errors (h : DvdInv ok s) (htodo : s.todo = call :: rest) : dvdErrorsFirst rest := by
  have herr := h.errors
  rw [htodo] at herr
  exact dvdErrorsFirst_tail herr

theorem DvdInv.popped (h : DvdInv ok s) (htodo : s.todo = call :: rest) (hcall : call.passes = true) : DvdInv ok (s.popped rest) := by
  refine h.frame (h.todo_noLow htodo fun cb r e => by rw [e] at hcall; cases hcall) (h.tail_noLow htodo) (.refl h.resume) rfl
    (fun _ => .refl _) ?_ ?_ rfl (h.tail_errors htodo) h.pausing
  · rw [htodo, dvdUsers_cons_passes hcall]
    rfl
  · rw [htodo, dvdReadies_cons_passes hcall]
    rfl

/-- A block is called back. -/
def DvdSys.calledBack (s : DvdSys B) (b : B) (result : Int) : DvdSys B :=
  { s with done := s.done ++ [⟨b, s.number b, result, s.core.blocks b, s.delivered b⟩]
           pending := Function.update s.pending b false
           user := true }

theorem DvdInv.calledBack (h : DvdInv ok s) {result : Int} (htodo : s.todo = .user (.block b) result :: rest) :
    DvdInv ok ((s.popped rest).calledBack b result) := by
  have hno := h.todo_noLow htodo fun cb r e => by cases e
  have hno' := h.tail_noLow htodo
  have husers : dvdUsers s.todo = b :: dvdUsers rest := by
    rw [htodo]
    rfl
  have hmem : b ∈ dvdUsers s.todo := by
    rw [husers]
    exact List.mem_cons_self
  have hnodup := h.users
  rw [husers] at hnodup
  have hnot : b ∉ dvdUsers rest := (List.nodup_cons.1 hnodup).1
  have hpend : ∀ x, x ≠ b → s.pending x = true → ((s.popped rest).calledBack b result).pending x = true :=
    fun x hx hp => (Function.update_of_ne hx ..).trans hp
  constructor
  case live => exact fun x hx => .inl ⟨h.steady hno hx, hno'⟩
  case rests =>
    intro hnone
    obtain ⟨h1, h2, h3, h4, -⟩ := h.rests hnone
    exact ⟨h1, h2, h3, h4, hno'⟩
  case readies =>
    have hr := h.readies
    rw [htodo] at hr
    exact hr
  case resume => exact h.resume
  case dummy => exact h.dummy
  case runs =>
    intro x hx
    obtain ⟨hp, hu⟩ := h.runs x hx
    rw [husers] at hu
    refine ⟨hpend x (fun e => hu (e ▸ List.mem_cons_self)) hp, fun hm => hu (List.mem_cons_of_mem _ hm)⟩
  case cover => exact h.cover
  case queued => exact h.queued
  case once => exact h.once
  case waiting =>
    intro x hx
    obtain ⟨hp, hu, hv⟩ := h.waiting x hx
    rw [husers] at hu
    exact ⟨hpend x (fun e => hu (e ▸ List.mem_cons_self)) hp, fun hm => hu (List.mem_cons_of_mem _ hm), hv⟩
  case users => exact (List.nodup_cons.1 hnodup).2
  case called =>
    intro x hx
    refine hpend x (fun e => hnot (e ▸ hx)) (h.called x ?_)
    rw [husers]
    exact List.mem_cons_of_mem _ hx
  case pausing => exact h.pausing
  case errors => exact h.tail_errors htodo

/-- The user's callback of a cancel. -/
def DvdSys.answer (s : DvdSys B) (id : Option Nat) : DvdSys B :=
  match id with
  | some id => { s with cancelled := s.cancelled ++ [id], user := true }
  | none => s

theorem DvdInv.answer (h : DvdInv ok s) (hno : dvdNoLow s.todo) (id : Option Nat) : DvdInv ok (s.answer id) := by
  cases id with
  | none => exact h
  | some id => exact h.frame hno hno (.refl h.resume) rfl (fun _ => .refl _) rfl rfl rfl h.errors h.pausing

/-- A cancel is answered after an error, before the next block is started. -/
theorem DvdInv.errorcancel (h : DvdInv ok s) {e : DvdExec B} (htodo : s.todo = .errorcancel e :: rest) :
    DvdInv ok ((s.popped rest).runCall (.errorcancel e)) := by
  have hno' := h.tail_noLow htodo
  have hpop := h.popped htodo rfl
  have hdummy : s.core.executing = .dummy := by
    have herr := h.errors
    have hr := h.readies
    rw [htodo] at herr hr
    by_contra hne
    rw [if_neg hne] at hr
    exact List.count_eq_zero.1 hr (List.mem_cons_of_mem _ herr.1)
  unfold DvdSys.runCall
  dsimp only
  split
  · refine DvdInv.answer (s := { s.popped rest with core := { s.core with canceling := false } }) ?_ hno' _
    exact ⟨fun b hb => (by cases hdummy.symm.trans hb), hpop.rests, hpop.readies, hpop.resume, hpop.dummy,
      fun b hb => (by cases hdummy.symm.trans hb), hpop.cover, hpop.queued, hpop.once, hpop.waiting, hpop.users, hpop.called,
      hpop.pausing, hpop.errors⟩
  · exact hpop

theorem DvdInv.ready_dummy (h : DvdInv ok s) (htodo : s.todo = .stateready :: rest) : s.core.executing = .dummy ∧ dvdReadies rest = 0 := by
  have hr := h.readies
  rw [htodo, show dvdReadies (.stateready :: rest) = dvdReadies rest + 1 from List.count_cons_self] at hr
  have hdummy : s.core.executing = .dummy := by
    by_contra hne
    rw [if_neg hne] at hr
    cases hr
  rw [if_pos hdummy] at hr
  exact ⟨hdummy, Nat.succ.inj hr⟩

theorem DvdInv.ready (h : DvdInv ok s) (htodo : s.todo = .stateready :: rest) : DvdInv ok (s.popped rest).cleared := by
  have hno := h.todo_noLow htodo fun cb r e => by cases e
  have hno' := h.tail_noLow htodo
  obtain ⟨hdummy, hr⟩ := h.ready_dummy htodo
  have hnot : ∀ b, s.core.executing ≠ .block b := fun b e => by cases hdummy.symm.trans e
  obtain ⟨h1, h2, h3, h4, -⟩ := h.rests hnot
  have husers : dvdUsers s.todo = dvdUsers rest := by
    rw [htodo]
    rfl
  constructor
  case live => exact fun b hb => by cases hb
  case rests => exact fun _ => ⟨h1, h2, h3, h4, hno'⟩
  case readies => exact hr
  case resume => exact h.resume
  case dummy => exact h.dummy
  case runs => exact fun b hb => by cases hb
  case cover => exact fun x hx => absurd (h.cover x hx) (hnot x)
  case queued => exact h.queued
  case once => exact h.once
  case waiting =>
    intro x hx
    have hw := h.waiting x hx
    rw [husers] at hw
    exact hw
  case users =>
    have hu := h.users
    rw [husers] at hu
    exact hu
  case called =>
    intro x hx
    have hc := h.called x
    rw [husers] at hc
    exact hc hx
  case pausing =>
    intro e
    cases hdummy.symm.trans (h.pausing e).1
  case errors => exact h.tail_errors htodo

theorem DvdInv.final (h : DvdInv ok s) {result : Nat} (htodo : s.todo = .low cb result :: rest) :
    result = 1 ∧ ∃ b, DvdFinal ok b cb rest s ∧ DvdMid b s.core (s.popped rest) := by
  have hmem : DvdCall.low cb result ∈ s.todo := by
    rw [htodo]
    exact List.mem_cons_self
  have hexec : ∃ b, s.core.executing = .block b := by
    by_contra hne
    exact (h.rests fun b e => hne ⟨b, e⟩).2.2.2.2 cb result hmem
  obtain ⟨b, hb⟩ := hexec
  rcases h.live b hb with ⟨-, hno⟩ | ⟨cb', rest', hf⟩
  · exact absurd hmem (hno cb result)
  · have heq := hf.todo
    rw [htodo] at heq
    cases heq
    refine ⟨rfl, b, hf, h.mid hb (h.tail_noLow htodo) rfl rfl rfl ?_ ?_ (h.tail_errors htodo) rfl rfl⟩
    · rw [htodo]
      rfl
    · rw [htodo]
      rfl

/-! ## What a callback comes to -/

/-- A condition on the callbacks that a step calls. -/
def dvdCallback (P : DvdCore B → DvdLow → Nat → Prop) (s : DvdSys B) : DvdEvent B → Prop
  | .interrupt de regs => ∀ cb, s.core.low.callback = some cb → P (s.core.interrupted regs) cb (s.core.low.result de)
  | .cover regs => ∀ cb, s.core.low.callback = some cb → P (s.core.covered regs) cb 4
  | .timeout regs => ∀ cb, s.core.low.callback = some cb → P (s.core.timedOut regs) cb 0x10
  | .run => ∀ cb result rest, s.todo = .low cb result :: rest → P s.core cb result
  | _ => True

instance (P : DvdCore B → DvdLow → Nat → Prop) [∀ c cb result, Decidable (P c cb result)] (s : DvdSys B) :
    (e : DvdEvent B) → Decidable (dvdCallback P s e)
  | .interrupt _ _ | .cover _ | .timeout _ => inferInstanceAs (Decidable (∀ cb ∈ s.core.low.callback, _))
  | .run =>
    match htodo : s.todo with
    | .low cb result :: rest =>
      decidable_of_iff (P s.core cb result)
        ⟨fun h cb' result' rest' e => by rw [htodo] at e; cases e; exact h, fun h => h cb result rest htodo⟩
    | [] | .clearwaitingqueue :: _ | .user _ _ :: _ | .cancelcb _ :: _ | .errorcancel _ :: _ | .mountcb _ :: _ | .stateready :: _
    | .resumed :: _ | .unbreak :: _ | .cb _ _ :: _ | .cancelAll _ :: _ | .resume :: _ | .back :: _ =>
      isTrue fun _ _ _ e => by rw [htodo] at e; cases e
  | .issue _ _ _ | .pause | .resume | .cancel _ _ | .cancelAll _ => inferInstanceAs (Decidable True)

/-- What a step must meet for no block to be stuck, dropped, or left in a state that is none of an end. -/
def dvdGoesOn : DvdSys B → DvdEvent B → Prop := dvdCallback DvdCore.goesOn

/-- What a step must meet for a cancel of the executing block to be answered when that block ends. -/
def dvdEndsClean : DvdSys B → DvdEvent B → Prop := dvdCallback fun c cb result => c.canceling = true → c.endsClean cb result

instance (s : DvdSys B) (e : DvdEvent B) : Decidable (dvdGoesOn s e) := inferInstanceAs (Decidable (dvdCallback _ s e))

instance (s : DvdSys B) (e : DvdEvent B) : Decidable (dvdEndsClean s e) := inferInstanceAs (Decidable (dvdCallback _ s e))

/-- Whether a step calls a callback of the low level. -/
def DvdEvent.turns (s : DvdSys B) : DvdEvent B → Prop
  | .interrupt _ _ | .cover _ | .timeout _ => True
  | .run => ∃ cb result rest, s.todo = .low cb result :: rest
  | _ => False

/-- What the drive has delivered when a callback of the block `b` is called: nothing, and then no read goes on; or what the command says. -/
def DvdDelivered (s : DvdSys B) (b : B) (cb : DvdLow) (result residual : Nat) (delivered : B → Nat) : Prop :=
  delivered = s.delivered ∧ (dvdReads (s.core.blocks b).cmd = true → cb = .statebusycb → result = 0x10) ∨
    (result = 1 ∨ result = 2 ∨ result &&& 8 ≠ 0) ∧ delivered = s.deliver residual ∧ (∃ ok t, DvdWaiting ok s.core b t cb s.core) ∧
      ∀ buf len offset, s.core.low.command = some (.read buf len offset) → residual ≤ len ∧ residual % 32 = 0

/-- **What a step that calls a callback comes to.** -/
inductive DvdTurned (ok clean : Prop) (s : DvdSys B) : DvdSys B → Prop where
  /-- None is waited for. -/
  | idle {c₁ : DvdCore B} {extra : List (DvdCall B)} (ht : DvdTaken s.core c₁) (hcb : s.core.low.callback = none)
    (hno : dvdNoLow s.todo) (hextra : ∀ call ∈ extra, call = .unbreak) : DvdTurned ok clean s (s.pushRun (c₁, extra))
  | called {b : B} {cb : DvdLow} {c₁ c : DvdCore B} {m : DvdSys B} {result : Nat} {calls extra : List (DvdCall B)}
    (hc : ∃ regs low, c₁ = { s.core with regs := regs, low := low })
    (hm : ∃ delivered todo user, m = { s with delivered := delivered, todo := todo, user := user })
    (htodo : m.todo = s.todo ∨ s.todo = .low cb result :: m.todo) (hcalled : DvdCalled ok b cb c₁)
    (hmid : DvdMid b c₁ m) (hcall : c₁.call cb result = (c, calls)) (hout : DvdOutcome ok clean c₁ b (c₁.txdAfter b cb result) (c, calls))
    (hextra : ∀ call ∈ extra, call = .unbreak) (hdel : DvdDelivered s b cb result c₁.regs.residual m.delivered) :
    DvdTurned ok clean s (m.pushRun (c, calls ++ extra))

theorem dvdTodo_mem {calls : List (DvdCall B)} {result : Nat} (h : calls = s.todo ∨ s.todo = .low cb result :: calls) :
    (∀ call ∈ calls, call ∈ s.todo) ∧ dvdUsers calls = dvdUsers s.todo := by
  rcases h with rfl | h
  · exact ⟨fun _ hm => hm, rfl⟩
  · rw [h]
    exact ⟨fun _ hm => List.mem_cons_of_mem _ hm, rfl⟩

theorem DvdInv.of_turned {clean : Prop} (h : DvdInv ok s) (ht : DvdTurned ok clean s s') : DvdInv ok s' := by
  cases ht with
  | idle htaken hcb hno hextra => exact h.turn_none hno htaken hcb fun call hm => by rw [hextra call hm]; rfl
  | called _ _ _ _ hmid _ hout hextra _ => exact hmid.outcome hout fun call hm => by rw [hextra call hm]; rfl

theorem DvdInv.noRead (h : DvdInv ok s) (hno : dvdNoLow s.todo) (hcb : s.core.low.callback = none) : s.core.low.reads = false := by
  by_cases hexec : ∃ b, s.core.executing = .block b
  · obtain ⟨b, hb⟩ := hexec
    cases h.steady hno hb with
    | waits cb hw =>
      rw [hw.callback] at hcb
      cases hcb
    | stuck hin _ => exact hin.noRead
  · exact (h.rests fun b e => hexec ⟨b, e⟩).2.2.2.1

theorem DvdSys.deliver_eq (hread : s.core.low.reads = false) (residual : Nat) : s.deliver residual = s.delivered := by
  unfold DvdSys.deliver
  unfold DvdLowLevel.reads at hread
  split
  case h_1 hcommand _ =>
    rw [hcommand] at hread
    cases hread
  case h_2 => rfl

theorem DvdInv.turned_by {clean : Prop} (h : DvdInv ok s) (hno : dvdNoLow s.todo) (ht : DvdTaken s.core c₁) {result : Nat}
    (hal : ∀ b cb t, DvdWaiting ok s.core b t cb s.core → c₁.low.alarm = false ∧ c₁.low.waitcoverclose = false ∧ (cb = .unlockdrivecb ∨ cb = .patchdrivecb → c₁.low.stopnextint = false))
    (hr : ok → ∀ b cb t, DvdWaiting ok s.core b t cb s.core → cb ≠ .statemotorstoppedcb → result = 1 ∨ result = 2 ∨ result = 0x10)
    (hbroken : result &&& 8 ≠ 0 → s.core.low.stopnextint = true) (hok : ok → ∀ cb, s.core.low.callback = some cb → c₁.goesOn cb result)
    (hclean : clean → ∀ cb, s.core.low.callback = some cb → c₁.canceling = true → c₁.endsClean cb result) {extra : List (DvdCall B)}
    (hextra : ∀ call ∈ extra, call = .unbreak) {delivered : B → Nat} (hsame : s.core.low.reads = false → delivered = s.delivered)
    (hdel : ∀ b cb, DvdWaiting ok s.core b (s.core.blocks b).txdsize cb s.core → DvdDelivered s b cb result c₁.regs.residual delivered) :
    DvdTurned ok clean s (DvdSys.turn { s with delivered := delivered } c₁ result extra) := by
  unfold DvdSys.turn
  rcases h.turn_cases hno ht hal with hcb | ⟨b, cb, hcb, hw, hcalled, hmid⟩
  · rw [hcb, hsame (h.noRead hno hcb)]
    exact .idle ht hcb hno hextra
  · rw [hcb]
    have hcan : result &&& 8 ≠ 0 → c₁.canceling = true := by
      intro e
      have hstop := DvdWaiting.stop hw (hbroken e)
      obtain ⟨regs, low, rfl⟩ := ht.eq
      exact hstop
    have hcall : DvdOutcome ok clean c₁ b (c₁.txdAfter b cb result) (c₁.call cb result) :=
      hcalled.call_spec (fun o => hr o b cb _ hw) hcan (fun o => hok o cb hcb) fun e o => hclean o cb hcb e
    have hm : DvdMid b c₁ { s with delivered := delivered } :=
      ⟨hmid.noLow, hmid.readies, hmid.dummy, hmid.runs, hmid.cover, hmid.queued, hmid.once, hmid.waiting, hmid.users, hmid.called,
        hmid.pausing, hmid.errors⟩
    exact .called ht.eq ⟨delivered, s.todo, s.user, rfl⟩ (.inl rfl) hcalled hm rfl hcall hextra (hdel b cb hw)

/-- **Every step that calls a callback** comes to what the callback comes to. -/
theorem DvdInv.turned {clean : Prop} (h : DvdInv ok s) {e : DvdEvent B} (he : dvdGuard s e) (hturns : e.turns s)
    (hok : ok → dvdGoesOn s e ∧ s.core.canceling = false) (hclean : clean → dvdEndsClean s e) : DvdTurned ok clean s (dvdNext s e) := by
  cases e with
  | interrupt de regs =>
    have hno := h.noLow (.inl he.1)
    show DvdTurned ok clean s (s.interrupt de regs)
    rw [DvdSys.interrupt_eq]
    refine h.turned_by hno (s.core.interrupted_taken regs) ?_ ?_ (s.core.low.result_cases de).1 (fun o => (hok o).1) hclean
      (fun call hm => List.mem_singleton.1 hm) (fun hread => DvdSys.deliver_eq hread _) fun b cb hw => ?_
    · intro b cb t hw
      refine hw.interrupted regs fun e => ?_
      have hcommand := he.2
      rw [e] at hcommand
      exact hcommand
    · intro o b cb t hw _
      refine ((s.core.low.result_cases de).2 (Bool.eq_false_iff.2 fun e => ?_)).imp_right .inl
      have hcan := (hok o).2
      rw [DvdWaiting.stop hw e] at hcan
      cases hcan
    · refine .inr ⟨?_, rfl, ⟨ok, _, hw⟩, fun buf len offset e => ?_⟩
      · unfold DvdLowLevel.result
        cases s.core.low.lastcmdwasread && s.core.low.stopnextint && s.core.low.breaking <;> cases de <;> decide
      · have hcommand := he.2
        rw [e] at hcommand
        exact hcommand
  | cover regs =>
    have hno := h.noLow (.inl he.1)
    show DvdTurned ok clean s (s.cover regs)
    rw [DvdSys.cover_eq]
    refine h.turned_by hno (s.core.covered_taken regs) (fun b cb t hw => hw.covered regs he.2) ?_ (fun e => absurd rfl e)
      (fun o => (hok o).1) hclean (fun call hm => List.mem_singleton.1 hm) (fun _ => rfl) fun b cb hw => ?_
    · exact fun o b cb t hw hne => absurd ((DvdWaiting.closed hw).1 he.2) hne
    · refine .inl ⟨rfl, fun _ e => ?_⟩
      have hcb := (DvdWaiting.closed hw).1 he.2
      rw [e] at hcb
      cases hcb
  | timeout regs =>
    have hno := h.noLow (.inl he.1)
    show DvdTurned ok clean s (s.timeout regs)
    rw [DvdSys.timeout_eq]
    exact h.turned_by hno (s.core.timedOut_taken regs) (fun b cb t hw => hw.timedOut regs he.2) (fun _ _ _ _ _ _ => .inr (.inr rfl))
      (fun e => absurd rfl e) (fun o => (hok o).1) hclean (fun call hm => by cases hm) (fun _ => rfl) fun b cb hw => .inl ⟨rfl, fun _ _ => rfl⟩
  | run =>
    obtain ⟨cb, result, rest, htodo⟩ := hturns
    show DvdTurned ok clean s s.run
    obtain ⟨rfl, b, hf, hmid⟩ := h.final htodo
    rw [DvdSys.run_eq htodo]
    have hcall : DvdOutcome ok clean s.core b (s.core.txdAfter b cb 1) (s.core.call cb 1) :=
      hf.called.call_spec (fun _ _ => .inl rfl) (fun e => absurd rfl e) (fun o => (hok o).1 cb 1 rest htodo)
        fun e o => hclean o cb 1 rest htodo e
    have hturned : DvdTurned ok clean s ((s.popped rest).pushRun ((s.core.call cb 1).1, (s.core.call cb 1).2 ++ [])) := by
      refine .called ⟨_, _, rfl⟩ ⟨_, _, _, rfl⟩ (.inr htodo) hf.called hmid rfl hcall (fun _ hm => by cases hm) ?_
      exact .inl ⟨rfl, fun hread e => absurd e (hf.read hread)⟩
    rw [List.append_nil] at hturned
    exact hturned
  | _ => exact hturns.elim

/-! ## Steps -/

/-- `DVD_CancelAllAsync` cancels the block that comes first, and goes on; at last it cancels the one that executes. -/
theorem DvdSys.cancelAll_cases (s : DvdSys B) (id : Option Nat) :
    (∃ p b rest, s.waitingqueue p = b :: rest ∧ s.runCall (.cancelAll id) =
        DvdSys.cancelAsync { s with waitingqueue := Function.update s.waitingqueue p rest, todo := .cancelAll id :: s.todo } (.block b) none) ∨
      (s.core.executing = .null ∧ s.runCall (.cancelAll id) = (s.accept id .null).push [.cb id .null]) ∨
      (∀ p, s.waitingqueue p = []) ∧ s.runCall (.cancelAll id) = s.cancelAsync s.core.executing id := by
  unfold DvdSys.runCall
  rcases s.popwaitingqueue_cases with ⟨hpop, hempty⟩ | ⟨p, b, rest, hpop, hq, -⟩
  · rw [hpop]
    dsimp only
    split
    case isTrue he => exact .inr (.inl ⟨he, rfl⟩)
    case isFalse => exact .inr (.inr ⟨hempty, rfl⟩)
  · rw [hpop]
    exact .inl ⟨p, b, rest, hq, rfl⟩

theorem dvdQueue_update {q : Fin 4 → List B} {p : Fin 4} {b : B} {rest : List B} (hq : q p = b :: rest) (p' : Fin 4) :
    (Function.update q p rest p').Sublist (q p') := by
  by_cases hp : p' = p
  · subst hp
    rw [Function.update_self, hq]
    exact List.sublist_cons_self b rest
  · rw [Function.update_of_ne hp]

theorem DvdInv.cancelAll (h : DvdInv ok s) (hno : dvdNoLow s.todo) (id : Option Nat) : DvdInv ok (s.runCall (.cancelAll id)) := by
  rcases s.cancelAll_cases id with ⟨p, b, rest, hq, heq⟩ | ⟨-, heq⟩ | ⟨-, heq⟩
  · rw [heq]
    have hno' : dvdNoLow (DvdCall.cancelAll id :: s.todo) := fun cb r hm => by
      rcases List.mem_cons.1 hm with e | hm
      · cases e
      · exact hno cb r hm
    refine DvdInv.cancelAsync ?_ hno' _ _
    exact h.frame hno hno' (.refl h.resume) rfl (dvdQueue_update hq) rfl rfl rfl h.errors h.pausing
  · rw [heq]
    exact (h.accept hno id .null).pushPlain hno fun call hm => by rw [List.mem_singleton.1 hm]; rfl
  · rw [heq]
    exact h.cancelAsync hno _ id

theorem DvdInv.run (h : DvdInv ok s) (hres : ok → s.core.resumefromhere = 0) (hlow : ∀ cb result rest, s.todo ≠ .low cb result :: rest) :
    DvdInv ok s.run := by
  cases htodo : s.todo with
  | nil =>
    have hno : dvdNoLow s.todo := by
      rw [htodo]
      exact fun cb r hm => by cases hm
    have hnext : s.run = { s with user := false } := by
      unfold DvdSys.run
      rw [htodo]
    rw [hnext]
    exact h.frame hno hno (.refl h.resume) rfl (fun _ => .refl _) rfl rfl rfl h.errors h.pausing
  | cons call rest =>
    rw [DvdSys.run_eq htodo]
    have hno' := h.tail_noLow htodo
    cases call with
    | clearwaitingqueue =>
      have hpop := h.popped htodo rfl
      exact hpop.frame hno' hno' (.refl h.resume) rfl (fun p => List.nil_sublist _) rfl rfl rfl hpop.errors hpop.pausing
    | user e result =>
      cases e with
      | block b => exact h.calledBack htodo
      | null => exact h.popped htodo rfl
      | dummy => exact h.popped htodo rfl
    | cancelcb e => exact (h.popped htodo rfl).answer hno' _
    | errorcancel e => exact h.errorcancel htodo
    | mountcb e =>
      have hpop := h.popped htodo rfl
      exact hpop.frame hno' hno' (.refl h.resume) rfl (fun _ => .refl _) rfl rfl rfl hpop.errors hpop.pausing
    | stateready => exact (h.ready htodo).stateready hres
    | low cb result => exact absurd htodo (hlow cb result rest)
    | resumed =>
      have hpop := h.popped htodo rfl
      exact hpop.frame hno' hno' ⟨rfl, rfl, rfl, rfl, rfl, ⟨_, _, rfl⟩, id, Nat.zero_le 7⟩ rfl (fun _ => .refl _) rfl rfl rfl hpop.errors
        hpop.pausing
    | unbreak =>
      have hpop := h.popped htodo rfl
      exact hpop.frame hno' hno' ⟨rfl, rfl, rfl, rfl, rfl, ⟨_, _, rfl⟩, id, h.resume⟩ rfl (fun _ => .refl _) rfl rfl rfl hpop.errors
        hpop.pausing
    | cb id e => exact (h.popped htodo rfl).answer hno' id
    | cancelAll id => exact (h.popped htodo rfl).cancelAll hno' id
    | resume => exact (h.popped htodo rfl).resumes hno' hres
    | back =>
      have hpop := h.popped htodo rfl
      exact hpop.frame hno' hno' (.refl h.resume) rfl (fun _ => .refl _) rfl rfl rfl hpop.errors hpop.pausing

/-- **Every step keeps the invariant**, of an engine that goes on as it should or not. -/
theorem DvdInv.next (h : DvdInv ok s) {e : DvdEvent B} (he : dvdGuard s e)
    (hok : ok → dvdGoesOn s e ∧ s.core.canceling = false ∧ s.core.resumefromhere = 0) : DvdInv ok (dvdNext s e) := by
  have hres : ok → s.core.resumefromhere = 0 := fun o => (hok o).2.2
  cases e with
  | issue prio b blk => exact h.issuecommand he.1 he.2.1 ⟨he.2.2.1, he.2.2.2.1⟩ prio hres
  | pause => exact h.pause (h.noLow he)
  | resume => exact h.resumes (h.noLow he) hres
  | cancel b id => exact h.cancelAsync (h.noLow he.1) (.block b) id
  | cancelAll id =>
    show DvdInv ok (s.pause.push [.cancelAll id, .resume])
    refine (h.pause (h.noLow he.1)).pushPlain (h.noLow he.1) fun call hm => ?_
    simp only [List.mem_cons, List.not_mem_nil, or_false] at hm
    rcases hm with rfl | rfl <;> rfl
  | run =>
    by_cases hlow : ∃ cb result rest, s.todo = .low cb result :: rest
    · exact h.of_turned (h.turned he hlow (fun o => ⟨(hok o).1, (hok o).2.1⟩) False.elim)
    · exact h.run hres fun cb result rest e => hlow ⟨cb, result, rest, e⟩
  | interrupt de regs => exact h.of_turned (h.turned he trivial (fun o => ⟨(hok o).1, (hok o).2.1⟩) False.elim)
  | cover regs => exact h.of_turned (h.turned he trivial (fun o => ⟨(hok o).1, (hok o).2.1⟩) False.elim)
  | timeout regs => exact h.of_turned (h.turned he trivial (fun o => ⟨(hok o).1, (hok o).2.1⟩) False.elim)

theorem dvdInv_init (drive : DvdDrive) : DvdInv ok (dvdInit (B := B) drive) where
  live := fun b hb => by cases hb
  rests := fun _ => ⟨rfl, rfl, rfl, rfl, fun cb r hm => by cases hm⟩
  readies := rfl
  resume := Nat.zero_le 7
  dummy := rfl
  runs := fun b hb => by cases hb
  cover := fun x hx => by cases hx
  queued := fun p x hx => by cases hx
  once := ⟨fun p => List.nodup_nil, fun p p' x hx => by cases hx⟩
  waiting := fun x hx => by cases hx
  users := List.nodup_nil
  called := fun x hx => by cases hx
  pausing := fun e => by cases e
  errors := trivial

end Steps

end Libogc
