import Libogc.Dvd.DvdSteps
/-!
# DvdCallbacks — what the callbacks of the engine come to

Each callback is shown to come to a `DvdOutcome`, and with them any callback that is called (`DvdCalled.call_spec`).
-/
namespace Libogc

open Runs

set_option linter.unusedSectionVars false

variable {B : Type} [DecidableEq B] {ok clean : Prop} {c₀ c : DvdCore B} {b : B} {t : Nat} {cb : DvdLow} {result : Nat}

/-- The callback `cb` of the block `b` is called. -/
structure DvdCalled (ok : Prop) (b : B) (cb : DvdLow) (c : DvdCore B) : Prop where
  executing : c.executing = .block b
  currcmd : c.currcmd = (c.blocks b).cmd
  callback : c.low.callback = none
  alarm : c.low.alarm = false
  closed : c.low.waitcoverclose = false
  noRead : c.low.reads = false
  cover : (c.blocks b).state.atCover = true ↔ cb = .statemotorstoppedcb
  live : (c.blocks b).state.live = true
  disk : (c.blocks b).disk
  range : 1 ≤ (c.blocks b).cmd ∧ (c.blocks b).cmd ≤ 25
  last : ok → c.Last
  waits : c.Waits cb
  stop : cb = .unlockdrivecb ∨ cb = .patchdrivecb → c.low.stopnextint = false
  resume : c.resumefromhere ≤ 7

theorem DvdCalled.at (h : DvdCalled ok b cb c) : DvdAt c b (c.blocks b).txdsize c :=
  ⟨h.executing, fun _ _ => rfl, rfl, rfl, rfl, rfl, fun _ => rfl, h.currcmd, rfl, rfl, rfl, h.resume, fun _ => Nat.le_refl _⟩

theorem DvdCalled.in (h : DvdCalled ok b cb c) (hcb : cb ≠ .statemotorstoppedcb) : DvdIn ok c b (c.blocks b).txdsize c where
  toDvdAt := h.at
  callback := h.callback
  alarm := h.alarm
  closed := h.closed
  noRead := h.noRead
  cover := Bool.eq_false_iff.2 fun e => hcb (h.cover.1 e)
  live := h.live
  disk := h.disk
  range := h.range
  last := h.last

theorem DvdIn.notRead (h : DvdIn ok c₀ b t c) (hread : dvdReads (c₀.blocks b).cmd = false) (t' : Nat) : DvdIn ok c₀ b t' c where
  toDvdAt := { h.toDvdAt with txd := fun hr => by rw [hread] at hr; cases hr }
  callback := h.callback
  alarm := h.alarm
  closed := h.closed
  noRead := h.noRead
  cover := h.cover
  live := h.live
  disk := h.disk
  range := h.range
  last := h.last

theorem DvdIn.stateretrycb (h : DvdIn ok c₀ b t c) (hcmd : c.exec.cmd = 5) (hr : ok → result = 1 ∨ result = 2 ∨ result = 0x10) :
    DvdOutcome ok clean c₀ b t (c.stateretrycb result) := by
  unfold DvdCore.stateretrycb
  by_cases h10 : result = 0x10
  · rw [if_pos h10]
    exact h.fatalTimeout
  rw [if_neg h10]
  by_cases h2 : result &&& 2 ≠ 0
  · rw [if_pos h2]
    exact h.stateerror
  rw [if_neg h2]
  by_cases h1 : result = 1
  · rw [if_pos h1]
    refine h.statebusy_again fun hread => ?_
    rw [← h.exec_cmd, hcmd] at hread
    cases hread
  rw [if_neg h1]
  refine .stuck h fun o => ?_
  rcases hr o with e | e | e
  · exact h1 e
  · exact h2 (by rw [e]; decide)
  · exact h10 e

theorem DvdIn.stateerrorcb (h : DvdIn ok c₀ b t c) (hok : ok → result = 0x10 ∨ c.exec.state = .FATAL_ERROR) :
    DvdOutcome ok clean c₀ b t (c.stateerrorcb result) := by
  unfold DvdCore.stateerrorcb
  by_cases h10 : result = 0x10
  · rw [if_pos h10]
    exact h.fatalTimeout
  rw [if_neg h10]
  refine h.stateerrorEnd fun o => ?_
  rw [← h.toDvdAt.exec]
  exact (hok o).resolve_left h10

/-- An error leaves all but the drive, and its category does not send a read that is unrecoverable back. -/
theorem DvdCore.categorizeerror_spec (c : DvdCore B) (errorcode : Nat) :
    (∃ drive, (c.categorizeerror errorcode).1 = { c with drive := drive }) ∧
      ((c.categorizeerror errorcode).2 < 3 ∨ (c.categorizeerror errorcode).2 = 3 ∧ dvdError errorcode ≠ 0x031100) := by
  unfold DvdCore.categorizeerror
  by_cases h1 : errorcode = 0x020400
  · rw [if_pos h1]
    exact ⟨⟨_, rfl⟩, .inl (show 1 < 3 by decide)⟩
  rw [if_neg h1]
  dsimp only
  by_cases h2 : dvdError errorcode = 0x062800 ∨ dvdError errorcode = 0x023a00 ∨ dvdError errorcode = 0x0B5A01
  · rw [if_pos h2]
    exact ⟨⟨_, rfl⟩, .inl (show 0 < 3 by decide)⟩
  rw [if_neg h2]
  by_cases h3 : dvdError errorcode = 0x043100
  · rw [if_pos h3]
    exact ⟨⟨_, rfl⟩, .inl (show 1 < 3 by decide)⟩
  rw [if_neg h3]
  by_cases h4 : u32 (c.drive.internalretries + 1) = 2
  · rw [if_pos h4]
    exact ⟨⟨_, rfl⟩, .inl (by dsimp only; split <;> decide)⟩
  rw [if_neg h4]
  split
  case isTrue => exact ⟨⟨_, rfl⟩, .inl (show 2 < 3 by decide)⟩
  case isFalse h => exact ⟨⟨_, rfl⟩, .inr ⟨rfl, fun e => h (.inl e)⟩⟩

theorem DvdIn.stategettingerrorcb (h : DvdIn ok c₀ b t c) (hr : ok → result = 1 ∨ result = 2 ∨ result = 0x10)
    (hok : ok → ¬ (result = 1 ∧ (c.categorizeerror c.regs.error).2 = 0 ∧ dvdStatus c.regs.error = 2 ∧ dvdOfDisk c.currcmd = true)) :
    DvdOutcome ok clean c₀ b t (c.stategettingerrorcb result) := by
  unfold DvdCore.stategettingerrorcb
  by_cases h10 : result = 0x10
  · rw [if_pos h10]
    exact h.fatalTimeout
  rw [if_neg h10]
  by_cases h2 : result &&& 2 ≠ 0
  · rw [if_pos h2]
    exact h.fatal
  rw [if_neg h2]
  by_cases h1 : result = 1
  · rw [if_pos h1]
    obtain ⟨⟨drive, hdrive⟩, hlt⟩ := c.categorizeerror_spec c.regs.error
    have hc : DvdIn ok c₀ b t (c.categorizeerror c.regs.error).1 := by
      rw [hdrive]
      exact h.congr rfl rfl rfl rfl rfl rfl (Nat.le_refl _) rfl rfl rfl rfl rfl
    have hok' : ok → (c.categorizeerror c.regs.error).2 = 0 → dvdStatus c.regs.error = 2 → dvdOfDisk (c₀.blocks b).cmd = false := by
      intro o h0 hst
      rw [← h.currcmd]
      exact Bool.eq_false_iff.2 fun e => hok o ⟨h1, h0, hst, e⟩
    clear hdrive
    dsimp only
    generalize c.categorizeerror c.regs.error = r at hc hok' hlt ⊢
    obtain ⟨c', cat⟩ := r
    dsimp only at hc hok' hlt ⊢
    by_cases hc1 : cat = 1
    · rw [if_pos hc1]
      exact hc.fatal
    rw [if_neg hc1]
    refine hc.checkcancel ?_ fun hcan => ?_
    · repeat' split
      all_goals decide
    have hnoCancel : c₀.canceling = true → ¬ clean := fun e => by
      rw [hcan] at e
      cases e
    by_cases hc2 : cat = 2
    · rw [if_pos hc2]
      split
      · split
        case isTrue hcmd =>
          apply DvdIn.lowSpinUpDrive
          · exact hc.congr rfl rfl rfl rfl rfl rfl (Nat.le_refl _) rfl rfl rfl rfl rfl
          · exact .inr (.inl ⟨rfl, hcmd⟩)
        case isFalse => exact hc.statebusy_again fun _ _ => hnoCancel
      · exact hc.stategotoretry
    rw [if_neg hc2]
    by_cases hc3 : cat = 3
    · rw [if_pos hc3, if_neg (hlt.resolve_left (by rw [hc3]; decide)).2]
      exact hc.callLaststate hcan
    rw [if_neg hc3]
    by_cases hs1 : dvdStatus c.regs.error = 1
    · rw [if_pos hs1]
      exact hc.statemotorstopped rfl fun o => Bool.eq_false_iff.2 fun e => hnoCancel e o
    rw [if_neg hs1]
    by_cases hs2 : dvdStatus c.regs.error = 2
    · rw [if_pos hs2]
      exact hc.toDvdAt.statecoverclosed hc.callback hc.alarm hc.closed hc.noRead hc.range hc.last (fun o => hok' o (by omega) hs2) fun _ => hnoCancel
    rw [if_neg hs2]
    by_cases hs3 : dvdStatus c.regs.error = 3
    · rw [if_pos hs3]
      exact hc.statemotorstopped rfl fun o => Bool.eq_false_iff.2 fun e => hnoCancel e o
    rw [if_neg hs3]
    exact hc.fatal
  · rw [if_neg h1]
    refine .stuck h fun o => ?_
    rcases hr o with e | e | e
    · exact h1 e
    · exact h2 (by rw [e]; decide)
    · exact h10 e

/-- A block ends with what is read of it, unless it is a read that is not read as a whole. -/
theorem DvdIn.done (h : DvdIn ok c₀ b t c) (result : Int) (hcan : c₀.canceling = false)
    (hread : dvdReads (c₀.blocks b).cmd = true → t = (c₀.blocks b).len ∧ result = s32 (c₀.blocks b).len) :
    DvdOutcome ok clean c₀ b t (c.finish (some .END) result []) :=
  h.finished result (.inl rfl) (fun e => by rw [hcan] at e; cases e) fun hr _ _ => hread hr

theorem DvdIn.doneOther (h : DvdIn ok c₀ b t c) (result : Int) {state : DvdState}
    (hst : state = .END ∨ state = .FATAL_ERROR ∨ state = .IGNORED) (hclean : c₀.canceling = true → ¬ clean)
    (hread : dvdReads (c₀.blocks b).cmd = false) : DvdOutcome ok clean c₀ b t (c.finish (some state) result []) :=
  h.finished result hst hclean fun hr => by rw [hread] at hr; cases hr

theorem DvdIn.setTxd (h : DvdIn ok c₀ b t c) (hread : dvdReads (c₀.blocks b).cmd = false) (f : DvdBlock → Nat) :
    DvdIn ok c₀ b t (c.setExec fun b => { b with txdsize := f b }) :=
  h.setExec rfl rfl rfl rfl rfl fun hr => by rw [hread] at hr; cases hr

theorem DvdIn.statebusyEnd (h : DvdIn ok c₀ b t c) (hcan : c₀.canceling = false) : DvdOutcome ok clean c₀ b t c.statebusyEnd := by
  have hclean : c₀.canceling = true → ¬ clean := fun e => by
    rw [hcan] at e
    cases e
  have hother : ∀ n, c.currcmd = n → n ≠ 1 → n ≠ 4 → dvdReads (c₀.blocks b).cmd = false := by
    intro n hn h1 h4
    rw [← h.currcmd, hn]
    exact decide_eq_false fun e => e.elim h1 h4
  have hexec := h.toDvdAt.exec
  unfold DvdCore.statebusyEnd
  by_cases h14 : c.currcmd = 0x14 ∨ c.currcmd = 0x15
  · rw [if_pos h14]
    have hr : dvdReads (c₀.blocks b).cmd = false := h14.elim (fun e => hother _ e (by decide) (by decide))
      fun e => hother _ e (by decide) (by decide)
    exact (h.setTxd hr _).doneOther _ (.inl rfl) hclean hr
  rw [if_neg h14]
  by_cases h16 : c.currcmd = 0x16 ∨ c.currcmd = 0x17
  · rw [if_pos h16]
    exact h.doneOther _ (.inl rfl) hclean (h16.elim (fun e => hother _ e (by decide) (by decide))
      fun e => hother _ e (by decide) (by decide))
  rw [if_neg h16]
  by_cases hchunk : dvdChunked c.currcmd = true
  · -- a read goes on until all is read
    rw [if_pos hchunk]
    by_cases hlen : c.exec.txdsize ≠ c.exec.len
    · rw [if_pos hlen]
      exact h.statebusy_again fun _ _ => hclean
    · rw [if_neg hlen]
      have hall : c.exec.txdsize = c.exec.len := Decidable.not_not.1 hlen
      refine h.done _ hcan fun hr => ?_
      rw [hexec, h.len] at hall
      rw [hexec, hall]
      exact ⟨(h.txd hr).symm.trans hall, rfl⟩
  rw [if_neg hchunk]
  have hnone : ∀ n, c.currcmd = n → dvdChunked n = false → dvdReads (c₀.blocks b).cmd = false := by
    intro n hn hc
    refine hother n hn ?_ ?_
    · rintro rfl
      cases hc
    · rintro rfl
      cases hc
  have hr := hnone _ rfl (Bool.eq_false_iff.2 hchunk)
  by_cases h19 : c.currcmd = 0x19
  · rw [if_pos h19]
    split
    · exact h.busy hr
    split
    · exact h.doneOther _ (.inr (.inl rfl)) hclean hr
    dsimp only
    split
    · exact (h.setTxd hr _).statebusy_again fun _ _ => hclean
    · exact (h.setTxd hr _).doneOther _ (.inl rfl) hclean hr
  rw [if_neg h19]
  by_cases h9 : c.currcmd = 9 ∨ c.currcmd = 0xa ∨ c.currcmd = 0xb ∨ c.currcmd = 0xc
  · rw [if_pos h9]
    exact (h.setTxd hr _).doneOther _ (.inl rfl) hclean hr
  rw [if_neg h9]
  by_cases h6 : c.currcmd = 6
  · rw [if_pos h6]
    split
    · split
      · exact h.doneOther _ (.inr (.inr rfl)) hclean hr
      · apply DvdIn.busy _ hr
        apply DvdIn.setSize
        exact h.congr rfl rfl rfl rfl rfl rfl (Nat.le_refl _) rfl rfl rfl rfl rfl
    · exact h.doneOther _ (.inl rfl) hclean hr
  rw [if_neg h6]
  split
  · exact h.doneOther _ (.inl rfl) hclean hr
  · exact h.doneOther _ (.inl rfl) hclean hr

/-- **`__dvd_statebusycb`**: what was transferred is counted before it is looked at how the command ended. -/
theorem DvdIn.statebusycb (h : DvdIn ok c b (c.blocks b).txdsize c) (hbroken : result &&& 8 ≠ 0 → c.canceling = true)
    (hclean : c.canceling = true → clean → c.endsClean .statebusycb result) :
    DvdOutcome ok clean c b (c.txdAfter b .statebusycb result) (c.statebusycb result) := by
  have hother : ∀ n, (c.blocks b).cmd = n → n ≠ 1 → n ≠ 4 → dvdReads (c.blocks b).cmd = false := by
    intro n hn h1 h4
    rw [hn]
    exact decide_eq_false fun e => e.elim h1 h4
  have hmotor : c.currcmd = 3 ∨ c.currcmd = 0xf → dvdReads (c.blocks b).cmd = false := by
    rw [h.currcmd]
    exact fun e => e.elim (fun e => hother _ e (by decide) (by decide)) fun e => hother _ e (by decide) (by decide)
  unfold DvdCore.statebusycb DvdCore.txdAfter
  by_cases h10 : result = 0x10
  · rw [if_pos h10, if_neg fun e => e.2 h10]
    exact h.fatalTimeout
  rw [if_neg h10, if_pos ⟨rfl, h10⟩]
  by_cases h32 : (c.currcmd = 3 ∨ c.currcmd = 0xf) ∧ result &&& 2 ≠ 0
  · rw [if_pos h32]
    exact (h.notRead (hmotor h32.1) _).fatal
  rw [if_neg h32]
  by_cases h31 : (c.currcmd = 3 ∨ c.currcmd = 0xf) ∧ result = 1
  · rw [if_pos h31]
    dsimp only
    refine DvdIn.checkcancel ?_ (Nat.le_refl 7) ?_
    · exact (h.notRead (hmotor h31.1) _).congr rfl rfl rfl rfl rfl rfl (Nat.le_refl _) rfl rfl rfl rfl rfl
    · intro hcan
      refine DvdIn.statemotorstopped ?_ rfl fun _ => hcan
      exact (h.notRead (hmotor h31.1) _).congr rfl rfl rfl rfl rfl rfl (Nat.le_refl _) rfl rfl rfl rfl rfl
  rw [if_neg h31]
  have hcount : DvdIn ok c b (u32 ((c.blocks b).txdsize + ((c.blocks b).currtxsize + 2 ^ 32 - c.regs.residual)))
      (if dvdCounted c.currcmd then
        c.setExec fun b => { b with txdsize := u32 (b.txdsize + (b.currtxsize + 2 ^ 32 - c.regs.residual)) }
      else c) := by
    split
    case isTrue => exact h.setExec rfl rfl rfl rfl rfl fun _ => rfl
    case isFalse hno =>
      refine h.notRead (Bool.eq_false_iff.2 fun hr => hno ?_) _
      rw [h.currcmd]
      rcases of_decide_eq_true hr with e | e <;> rw [e] <;> rfl
  generalize u32 ((c.blocks b).txdsize + ((c.blocks b).currtxsize + 2 ^ 32 - c.regs.residual)) = t' at hcount ⊢
  have hcurr : (if dvdCounted c.currcmd then
      c.setExec fun b => { b with txdsize := u32 (b.txdsize + (b.currtxsize + 2 ^ 32 - c.regs.residual)) }
    else c).currcmd = c.currcmd := hcount.currcmd.trans h.currcmd.symm
  dsimp only
  generalize (if dvdCounted c.currcmd then
      c.setExec fun b => { b with txdsize := u32 (b.txdsize + (b.currtxsize + 2 ^ 32 - c.regs.residual)) }
    else c) = c' at hcount hcurr ⊢
  by_cases h8 : result &&& 8 ≠ 0
  · rw [if_pos h8]
    exact hcount.cancelled (hbroken h8) hcount.resume.1
  rw [if_neg h8]
  by_cases h1 : result &&& 1 ≠ 0
  · rw [if_pos h1]
    have hc : DvdIn ok c b t' { c' with drive := { c'.drive with internalretries := 0 } } :=
      hcount.congr rfl rfl rfl rfl rfl rfl (Nat.le_refl _) rfl rfl rfl rfl rfl
    by_cases hdi : c'.currcmd = 0x10
    · rw [if_pos hdi]
      refine hc.doneOther _ (.inl rfl) (fun hcan o => ?_) (hother 0x10 (hcount.currcmd.symm.trans hdi) (by decide) (by decide))
      exact hclean hcan o ⟨hcurr.symm.trans hdi, Decidable.not_not.1 h8, h1⟩
    rw [if_neg hdi]
    exact hc.checkcancel (Nat.zero_le 7) fun hcan => hc.statebusyEnd hcan
  rw [if_neg h1]
  by_cases he : result = 2 ∧ c'.currcmd = 0xe
  · rw [if_pos he]
    exact hcount.fatal
  rw [if_neg he]
  by_cases h14 : result = 2 ∧ (c'.currcmd = 0x14 ∨ c'.currcmd = 0x15 ∨ c'.currcmd = 0x16 ∨ c'.currcmd = 0x17)
  · rw [if_pos h14]
    refine hcount.checkcancel (Nat.zero_le 7) fun hcan => ?_
    refine hcount.doneOther _ (.inr (.inl rfl)) (fun e => by rw [hcan] at e; cases e) ?_
    have hcmd := h14.2
    rw [hcount.currcmd] at hcmd
    rcases hcmd with e | e | e | e
    all_goals exact hother _ e (by decide) (by decide)
  rw [if_neg h14]
  by_cases hall : result = 2 ∧ dvdChunked c'.currcmd = true ∧ c'.exec.txdsize = c'.exec.len
  · rw [if_pos hall]
    refine hcount.checkcancel (Nat.zero_le 7) fun hcan => ?_
    refine hcount.done _ hcan fun hr => ?_
    have hlen := hall.2.2
    rw [hcount.exec, hcount.len] at hlen
    rw [hcount.exec, hlen]
    exact ⟨(hcount.txd hr).symm.trans hlen, rfl⟩
  rw [if_neg hall]
  exact hcount.stategettingerror

theorem DvdIn.statecoverclosedcb (h : DvdIn ok c₀ b t c) (hr : ok → result = 1 ∨ result = 2 ∨ result = 0x10)
    (hok : ok → c.goesOn .statecoverclosedcb result) (hclean : c₀.canceling = true → clean → c.endsClean .statecoverclosedcb result) :
    DvdOutcome ok clean c₀ b t (c.statecoverclosedcb result) := by
  unfold DvdCore.statecoverclosedcb
  by_cases h10 : result = 0x10
  · rw [if_pos h10]
    exact h.fatalTimeout
  rw [if_neg h10]
  by_cases h6 : result &&& 6 = 0
  · rw [if_pos h6]
    have hc : DvdIn ok c₀ b t { c with drive := { c.drive with internalretries := 0 } } :=
      h.congr rfl rfl rfl rfl rfl rfl (Nat.le_refl _) rfl rfl rfl rfl rfl
    refine hc.statecheckid (fun o hs => ?_) fun hcan o => ?_
    · have h1 : result = 1 := by
        rcases hr o with e | e | e
        · exact e
        · rw [e] at h6
          cases h6
        · exact absurd e h10
      exact hok o ⟨h1, hs⟩
    · obtain ⟨h17, hsame, hlen⟩ := hclean hcan o h6
      refine ⟨h17, hsame, fun e => hlen ⟨?_, ?_⟩⟩
      · rw [h.currcmd]
        exact e.1
      · rw [h.exec, h.len]
        exact e.2
  rw [if_neg h6]
  by_cases h2 : result = 2
  · rw [if_pos h2]
    exact h.stategettingerror
  rw [if_neg h2]
  refine .stuck h fun o => ?_
  rcases hr o with e | e | e
  · exact h6 (by rw [e]; decide)
  · exact h2 e
  · exact h10 e

theorem DvdIn.stategotoretrycb (h : DvdIn ok c₀ b t c) (hr : ok → result = 1 ∨ result = 2 ∨ result = 0x10)
    (hok : ok → c.goesOn .stategotoretrycb result) : DvdOutcome ok clean c₀ b t (c.stategotoretrycb result) := by
  unfold DvdCore.stategotoretrycb
  by_cases h10 : result = 0x10
  · rw [if_pos h10]
    exact h.fatalTimeout
  rw [if_neg h10]
  by_cases h2 : result &&& 2 ≠ 0
  · rw [if_pos h2]
    exact h.fatal
  rw [if_neg h2]
  by_cases h1 : result = 1
  · rw [if_pos h1]
    dsimp only
    split
    case isTrue =>
      refine DvdIn.checkcancel ?_ (show 2 ≤ 7 by decide) ?_
      · exact h.congr rfl rfl rfl rfl rfl rfl (Nat.le_refl _) rfl rfl rfl rfl rfl
      · intro hcan
        refine DvdIn.statemotorstopped ?_ rfl fun _ => hcan
        exact h.congr rfl rfl rfl rfl rfl rfl (Nat.le_refl _) rfl rfl rfl rfl rfl
    case isFalse hd =>
      refine .stuck (h.congr rfl rfl rfl rfl rfl rfl (Nat.le_refl _) rfl rfl rfl rfl rfl) fun o => ?_
      exact hd (hok o h1)
  rw [if_neg h1]
  refine .stuck h fun o => ?_
  rcases hr o with e | e | e
  · exact h1 e
  · exact h2 (by rw [e]; decide)
  · exact h10 e

/-- A command that goes on with `__dvd_statebusycb`, of a block that is no read. -/
theorem DvdIn.lowFinal_busy (h : DvdIn ok c₀ b t c) {n : Nat} (hcmd : c.exec.cmd = n) (h1 : n ≠ 1) (h4 : n ≠ 4) :
    DvdOutcome ok clean c₀ b t (c.lowFinal (some .statebusycb), []) := by
  refine h.lowFinal trivial (by unfold DvdLow.quiet; decide) fun hr => ?_
  rw [← h.exec_cmd, hcmd] at hr
  exact absurd (of_decide_eq_true hr) fun e => e.elim h1 h4

theorem DvdIn.cntrldrivecb (h : DvdIn ok c₀ b t c) (hready : c.Ready .cntrldrivecb) (hok : ok → result ≠ 0x10) :
    DvdOutcome ok clean c₀ b t (c.cntrldrivecb result) := by
  unfold DvdCore.cntrldrivecb
  by_cases h10 : result = 0x10
  · rw [if_pos h10]
    exact h.statetimeout fun o => absurd h10 (hok o)
  rw [if_neg h10]
  split
  · rw [hready.1]
    exact h.lowFinal_busy hready.2 (by decide) (by decide)
  · exact h.stategettingerror

theorem DvdIn.setgcmoffsetcb (h : DvdIn ok c₀ b t c) (hready : c.Ready .setgcmoffsetcb) (hok : ok → result ≠ 0x10) :
    DvdOutcome ok clean c₀ b t (c.setgcmoffsetcb result) := by
  unfold DvdCore.setgcmoffsetcb
  by_cases h10 : result = 0x10
  · rw [if_pos h10]
    exact h.statetimeout fun o => absurd h10 (hok o)
  rw [if_neg h10]
  split
  · rw [hready.1]
    exact h.lowFinal_busy hready.2 (by decide) (by decide)
  · exact h.stategettingerror

theorem DvdIn.lowUnlocked (h : DvdIn ok c₀ b t c) {cb : DvdLow} (hw : (c.lowCommand false cb).Waits cb)
    (hcover : cb ≠ .statemotorstoppedcb) (hread : cb ≠ .statebusycb) : DvdOutcome ok clean c₀ b t (c.lowCommand false cb, []) :=
  h.low hw (fun _ => rfl) hcover fun _ => hread

theorem DvdIn.handlespinupcb (h : DvdIn ok c₀ b t c) (hs : c.Sud) (hok : ok → result ≠ 0x10) :
    DvdOutcome ok clean c₀ b t (c.handlespinupcb result) := by
  have hstep (n : Nat) : DvdIn ok c₀ b t { c with drive := { c.drive with spinupStep := n } } :=
    h.congr rfl rfl rfl rfl rfl rfl (Nat.le_refl _) rfl rfl rfl rfl rfl
  unfold DvdCore.handlespinupcb
  by_cases h10 : result = 0x10
  · rw [if_pos h10]
    exact h.statetimeout fun o => absurd h10 (hok o)
  rw [if_neg h10]
  by_cases h0 : result = 1 ∧ c.drive.spinupStep = 0
  · rw [if_pos h0]
    exact (hstep 1).lowUnlocked hs (by decide) (by decide)
  rw [if_neg h0]
  by_cases h1 : result = 1 ∧ c.drive.spinupStep = 1
  · rw [if_pos h1]
    exact (hstep 2).lowUnlocked hs (by decide) (by decide)
  rw [if_neg h1]
  by_cases h2 : result = 1 ∧ c.drive.spinupStep = 2
  · rw [if_pos h2]
    obtain ⟨cb, hf, hr, hw, hquiet, hread⟩ := h.toDvdAt.sud hs
    rw [hf]
    split
    · apply DvdIn.lowFinal (hstep 0) _ hquiet hread
      cases cb <;> exact hw
    · obtain ⟨rfl, -⟩ := h2
      apply DvdOutcome.final (hstep 0) _ hquiet hread
      cases cb <;> exact hr
  rw [if_neg h2]
  exact (hstep 0).stategettingerror

theorem DvdIn.patchdrivecb (h : DvdIn ok c₀ b t c) (hready : c.Ready .patchdrivecb) (hstop : c.low.stopnextint = false) :
    DvdOutcome ok clean c₀ b t c.patchdrivecb := by
  obtain ⟨hs, hf, hcode⟩ := hready
  -- the same callback goes on
  have hagain (drive : DvdDrive) (hd : drive.patchcode = true) : DvdOutcome ok clean c₀ b t
      ({ c with drive := drive, low := { c.low with callback := some .patchdrivecb, command := some .other } }, []) :=
    .waits .patchdrivecb (h.waiting (h.toDvdAt.congr rfl rfl rfl rfl rfl rfl (Nat.le_refl _)) rfl rfl rfl rfl rfl hstop (fun _ => h.alarm)
      ⟨hs, hf, hd⟩ (by decide) fun _ => by decide) fun e => by cases e
  unfold DvdCore.patchdrivecb
  rw [if_neg (by rw [hcode]; decide)]
  by_cases h0 : c.drive.patchStage = 0
  · rw [if_pos h0]
    exact hagain _ hcode
  rw [if_neg h0]
  by_cases h3 : c.drive.patchStage ≠ 3
  · rw [if_pos h3]
    exact hagain _ hcode
  rw [if_neg h3, hf]
  apply DvdIn.lowFinal
  · exact h.congr rfl rfl rfl rfl rfl rfl (Nat.le_refl _) rfl rfl rfl rfl rfl
  · exact hs
  · unfold DvdLow.quiet
    decide
  · exact fun _ => by decide

theorem DvdIn.fwpatchcb (h : DvdIn ok c₀ b t c) (hready : c.Ready .fwpatchcb) (hok : ok → c.goesOn .fwpatchcb result) :
    DvdOutcome ok clean c₀ b t (c.fwpatchcb result) := by
  have hstep (n : Nat) : DvdIn ok c₀ b t { c with drive := { c.drive with patchStep := n } } :=
    h.congr rfl rfl rfl rfl rfl rfl (Nat.le_refl _) rfl rfl rfl rfl rfl
  unfold DvdCore.fwpatchcb
  by_cases h10 : result = 0x10
  · rw [if_pos h10]
    exact h.statetimeout fun o => absurd h10 (hok o).1
  rw [if_neg h10]
  by_cases h0 : result = 1 ∧ c.drive.patchStep = 0
  · rw [if_pos h0]
    exact (hstep 1).lowUnlockDrive hready (by unfold DvdLow.quiet; decide) (by decide)
  rw [if_neg h0]
  by_cases h1 : result = 1 ∧ c.drive.patchStep = 1
  · rw [if_pos h1]
    dsimp only
    by_cases hknown : c.regs.known = true
    · apply DvdIn.patchdrivecb
      · exact h.congr rfl rfl rfl rfl rfl rfl (Nat.le_refl _) rfl rfl rfl rfl rfl
      · exact ⟨hready.1, hready.2, hknown⟩
      · rfl
    · have hunknown : c.regs.known = false := Bool.eq_false_iff.2 hknown
      unfold DvdCore.patchdrivecb
      rw [if_pos (by dsimp only; rw [hunknown]; rfl)]
      exact .stuck (h.congr rfl rfl rfl rfl rfl rfl (Nat.le_refl _) rfl rfl rfl rfl rfl) fun o => (hok o).2 ⟨h1.1, h1.2, hunknown⟩
  rw [if_neg h1]
  exact (hstep 0).stategettingerror

theorem DvdIn.checkaddonscb (h : DvdIn ok c₀ b t c) (hready : c.Ready .checkaddonscb) :
    DvdOutcome ok clean c₀ b t (c.checkaddonscb result) := by
  unfold DvdCore.checkaddonscb
  dsimp only
  split
  · apply DvdIn.plain
    · exact h.congr rfl rfl rfl rfl rfl rfl (Nat.le_refl _) rfl rfl rfl rfl rfl
    · exact hready
    · unfold DvdLow.quiet
      decide
    · decide
  · have hfinal : ∀ drive : DvdDrive, DvdOutcome ok clean c₀ b t
        ({ c with drive := drive, low := { c.low with finaladdoncb := none } }, DvdCore.callFinal c.low.finaladdoncb 1) := by
      intro drive
      rw [hready.2]
      refine .final (h.congr rfl rfl rfl rfl rfl rfl (Nat.le_refl _) rfl rfl rfl rfl rfl) hready.1 (by unfold DvdLow.quiet; decide) fun _ => by decide
    split
    · exact hfinal _
    · exact hfinal _

theorem DvdIn.unlockdrivecb (h : DvdIn ok c₀ b t c) (hw : c.Waits .unlockdrivecb) (hstop : c.low.stopnextint = false) :
    DvdOutcome ok clean c₀ b t c.unlockdrivecb := by
  obtain ⟨f, hf, hquiet, hread, hr⟩ := hw
  unfold DvdCore.unlockdrivecb
  refine .waits _ (h.waiting (h.toDvdAt.congr rfl rfl rfl rfl rfl rfl (Nat.le_refl _)) rfl rfl hf rfl rfl hstop (fun hq => absurd hq hquiet) ?_
    (fun e => hquiet (.inr (.inr e))) fun _ => hread) fun e => absurd (.inr (.inr e)) hquiet
  apply DvdCore.waits_of_ready
  cases f <;> exact hr

theorem DvdCalled.call_spec (h : DvdCalled ok b cb c) (hr : ok → cb ≠ .statemotorstoppedcb → result = 1 ∨ result = 2 ∨ result = 0x10)
    (hbroken : result &&& 8 ≠ 0 → c.canceling = true) (hok : ok → c.goesOn cb result)
    (hclean : c.canceling = true → clean → c.endsClean cb result) :
    DvdOutcome ok clean c b (c.txdAfter b cb result) (c.call cb result) := by
  have hsame : cb ≠ .statebusycb → c.txdAfter b cb result = (c.blocks b).txdsize := fun hcb => if_neg fun e => hcb e.1
  cases cb with
  | statebusycb => exact (h.in (by decide)).statebusycb hbroken hclean
  | statemotorstoppedcb =>
    rw [hsame (by decide)]
    refine h.at.statecoverclosed h.callback h.alarm h.closed h.noRead h.range h.last (fun o => ?_) fun hd hcan o => ?_
    · rw [← h.currcmd]
      exact hok o
    · rw [← h.currcmd, hclean hcan o] at hd
      cases hd
  | stateretrycb =>
    rw [hsame (by decide)]
    exact (h.in (by decide)).stateretrycb h.waits fun o => hr o (by decide)
  | unrecoverederrorretrycb => exact h.waits.elim
  | unrecoverederrorcb => exact h.waits.elim
  | stateerrorcb =>
    rw [hsame (by decide)]
    exact (h.in (by decide)).stateerrorcb hok
  | stategettingerrorcb =>
    rw [hsame (by decide)]
    exact (h.in (by decide)).stategettingerrorcb (fun o => hr o (by decide)) hok
  | statecoverclosedcb =>
    rw [hsame (by decide)]
    exact (h.in (by decide)).statecoverclosedcb (fun o => hr o (by decide)) hok hclean
  | statecheckid1cb =>
    rw [hsame (by decide)]
    exact .stuck (h.in (by decide)) hok
  | stategotoretrycb =>
    rw [hsame (by decide)]
    exact (h.in (by decide)).stategotoretrycb (fun o => hr o (by decide)) hok
  | cntrldrivecb =>
    rw [hsame (by decide)]
    exact (h.in (by decide)).cntrldrivecb h.waits hok
  | setgcmoffsetcb =>
    rw [hsame (by decide)]
    exact (h.in (by decide)).setgcmoffsetcb h.waits hok
  | handlespinupcb =>
    rw [hsame (by decide)]
    exact (h.in (by decide)).handlespinupcb h.waits hok
  | fwpatchcb =>
    rw [hsame (by decide)]
    exact (h.in (by decide)).fwpatchcb h.waits hok
  | checkaddonscb =>
    rw [hsame (by decide)]
    exact (h.in (by decide)).checkaddonscb h.waits
  | spinupdrivecb =>
    rw [hsame (by decide)]
    exact (h.in (by decide)).spinupdrivecb h.waits hok
  | statecoverclosedSpinupcb =>
    rw [hsame (by decide)]
    have hc : DvdIn ok c b (c.blocks b).txdsize { c with laststate := some .statecoverclosedCmd } :=
      { toDvdAt := h.at.congr rfl rfl rfl rfl rfl rfl (Nat.le_refl _), callback := h.callback, alarm := h.alarm, closed := h.closed
        noRead := h.noRead, cover := (h.in (by decide)).cover, live := h.live, disk := h.disk, range := h.range, last := fun _ => .inr rfl }
    exact hc.statecoverclosedCmd
  | patchdrivecb =>
    rw [hsame (by decide)]
    exact (h.in (by decide)).patchdrivecb h.waits (h.stop (.inr rfl))
  | unlockdrivecb =>
    rw [hsame (by decide)]
    exact (h.in (by decide)).unlockdrivecb h.waits (h.stop (.inl rfl))

end Libogc
