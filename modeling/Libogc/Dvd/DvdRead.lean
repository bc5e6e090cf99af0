import Libogc.Dvd.DvdOnce
/-!
# DvdRead — a read is delivered as a whole

What a block says of its progress is what the drive has delivered (`DvdReading`), so each part of a read goes on where the last one
stopped, whatever it was that stopped it, and the block ends well when all of it is there.
-/
namespace Libogc

open Runs

set_option linter.unusedSectionVars false

variable {B : Type} [DecidableEq B]

/-- What a read is called back with, unless it was cancelled: its length, when all of it was delivered, and then only. -/
def dvdReadEnds (blk : DvdBlock) (delivered : Nat) (result : Int) : Prop :=
  dvdReads blk.cmd = true → 0 < blk.len → blk.state ≠ .CANCELED →
    (blk.state = .END ↔ delivered = blk.len) ∧ (blk.state = .END → result = s32 blk.len)

/-- A read that executes has this much delivered, and not all of it. -/
structure DvdPart (blk : DvdBlock) (delivered : Nat) : Prop where
  txd : blk.txdsize = delivered
  less : delivered < blk.len
  len : blk.len < 2 ^ 32
  whole : blk.len % 4 = 0 → delivered % 4 = 0

structure DvdReading (s : DvdSys B) : Prop where
  inv : DvdInv False s
  waits : ∀ x, (s.core.blocks x).state = .WAITING → dvdReads (s.core.blocks x).cmd = true → 0 < (s.core.blocks x).len →
    DvdPart (s.core.blocks x) (s.delivered x)
  runs : ∀ b, s.core.executing = .block b → dvdReads (s.core.blocks b).cmd = true → 0 < (s.core.blocks b).len →
    DvdPart (s.core.blocks b) (s.delivered b)
  calls : ∀ b result, .user (.block b) result ∈ s.todo → dvdReadEnds (s.core.blocks b) (s.delivered b) result
  done : ∀ d ∈ s.done, dvdReadEnds d.blk d.delivered d.result

/-! ## A callback is called -/

section Called
variable {ok clean : Prop} {c c₀ : DvdCore B} {b : B} {cb : DvdLow} {t result : Nat} {s s' : DvdSys B}

theorem DvdCore.finish_some_state (hexec : c.executing = .block b) (state : DvdState) (res : Int) (calls : List (DvdCall B)) :
    (c.finish (some state) res calls).1.executing = .dummy ∧ ((c.finish (some state) res calls).1.blocks b).state = state := by
  refine ⟨rfl, ?_⟩
  unfold DvdCore.finish DvdCore.setState DvdCore.setExec
  dsimp only
  rw [hexec]
  dsimp only
  rw [Function.update_self]

theorem DvdCore.statebusyEnd_whole (hcmd : dvdReads c.currcmd = true) (hall : c.exec.txdsize = c.exec.len) :
    c.statebusyEnd = c.finish (some .END) (s32 c.exec.txdsize) [] := by
  have hcmd : c.currcmd = 1 ∨ c.currcmd = 4 := of_decide_eq_true hcmd
  have hchunked : dvdChunked c.currcmd = true := by rcases hcmd with e | e <;> rw [e] <;> rfl
  unfold DvdCore.statebusyEnd
  rw [if_neg (by omega), if_neg (by omega), if_pos hchunked]
  exact if_neg (not_not.2 hall)

theorem DvdCalled.read_ends (h : DvdCalled ok b .statebusycb c) (hr : dvdReads (c.blocks b).cmd = true)
    (hres : result = 1 ∨ result = 2 ∨ result &&& 8 ≠ 0) (hall : c.txdAfter b .statebusycb result = (c.blocks b).len) :
    (c.call .statebusycb result).1.executing = .dummy ∧
      (((c.call .statebusycb result).1.blocks b).state = .END ∨ ((c.call .statebusycb result).1.blocks b).state = .CANCELED) := by
  show (c.statebusycb result).1.executing = _ ∧ (((c.statebusycb result).1.blocks b).state = _ ∨ ((c.statebusycb result).1.blocks b).state = _)
  have h10 : result ≠ 0x10 := by
    rintro rfl
    rcases hres with e | e | e
    · cases e
    · cases e
    · exact e rfl
  have hcmd : c.currcmd = 1 ∨ c.currcmd = 4 := by
    rw [h.currcmd]
    exact of_decide_eq_true hr
  have hmotor : ¬ (c.currcmd = 3 ∨ c.currcmd = 0xf) := by omega
  have hstream : ¬ c.currcmd = 0x10 := by omega
  have hinquiry : ¬ c.currcmd = 0xe := by omega
  have hcounted : dvdCounted c.currcmd = true := by rcases hcmd with e | e <;> rw [e] <;> rfl
  have hchunked : dvdChunked c.currcmd = true := by rcases hcmd with e | e <;> rw [e] <;> rfl
  unfold DvdCore.txdAfter at hall
  rw [if_pos ⟨rfl, h10⟩] at hall
  unfold DvdCore.statebusycb
  rw [if_neg h10, if_neg fun e => hmotor e.1, if_neg fun e => hmotor e.1, if_pos hcounted]
  dsimp only
  -- what was transferred is counted
  have hset := h.at.setExec_eq fun b => { b with txdsize := u32 (b.txdsize + (b.currtxsize + 2 ^ 32 - c.regs.residual)) }
  rw [hset, hall]
  have hexec : DvdCore.exec { c with blocks := Function.update c.blocks b { c.blocks b with txdsize := (c.blocks b).len } } =
      { c.blocks b with txdsize := (c.blocks b).len } := by
    unfold DvdCore.exec
    dsimp only
    rw [h.executing]
    exact Function.update_self ..
  have hcancels : ∀ (c₁ : DvdCore B) (r : DvdRun B), c₁.checkcancel 0 = some r → c₁.executing = .block b →
      r.1.executing = .dummy ∧ ((r.1.blocks b).state = .END ∨ (r.1.blocks b).state = .CANCELED) := by
    intro c₁ r hr hc₁
    unfold DvdCore.checkcancel at hr
    split at hr
    · rw [← Option.some.inj hr]
      have hf := DvdCore.finish_some_state (c := { c₁ with resumefromhere := 0, canceling := false }) hc₁ .CANCELED DVD_ERROR_CANCELED
        [.cancelcb c₁.executing]
      exact ⟨hf.1, .inr hf.2⟩
    · cases hr
  have hends : ∀ (c₁ : DvdCore B) (r : DvdRun B), (∃ res calls, r = c₁.finish (some .END) res calls) → c₁.executing = .block b →
      r.1.executing = .dummy ∧ ((r.1.blocks b).state = .END ∨ (r.1.blocks b).state = .CANCELED) := by
    rintro c₁ r ⟨res, calls, rfl⟩ hc₁
    have hf := DvdCore.finish_some_state hc₁ .END res calls
    exact ⟨hf.1, .inl hf.2⟩
  by_cases h8 : result &&& 8 ≠ 0
  · rw [if_pos h8]
    have hf := DvdCore.finish_some_state (b := b) (c := { c with
      blocks := Function.update c.blocks b { c.blocks b with txdsize := (c.blocks b).len }, canceling := false }) h.executing .CANCELED
      DVD_ERROR_CANCELED [.cancelcb c.executing]
    exact ⟨hf.1, .inr hf.2⟩
  rw [if_neg h8]
  rcases hres with rfl | rfl | e
  · rw [if_pos (by decide), if_neg hstream]
    split
    · rename_i hr
      exact hcancels _ _ hr h.executing
    · refine hends _ _ ⟨_, _, DvdCore.statebusyEnd_whole ?_ ?_⟩ h.executing
      · exact decide_eq_true hcmd
      · exact (congrArg DvdBlock.txdsize hexec).trans (congrArg DvdBlock.len hexec).symm
  · have hother : ¬ (c.currcmd = 0x14 ∨ c.currcmd = 0x15 ∨ c.currcmd = 0x16 ∨ c.currcmd = 0x17) := by omega
    rw [if_neg (by decide), if_neg fun e => hinquiry e.2, if_neg fun e => hother e.2]
    rw [if_pos ⟨rfl, hchunked, (congrArg DvdBlock.txdsize hexec).trans (congrArg DvdBlock.len hexec).symm⟩]
    split
    · rename_i hr
      exact hcancels _ _ hr h.executing
    · exact hends _ _ ⟨_, _, rfl⟩ h.executing
  · exact absurd e h8

/-- What the drive delivers is what the block counts, and no more than all of it. -/
theorem DvdReading.delivered (h : DvdReading s) (hexec : s.core.executing = .block b) (hr : dvdReads (s.core.blocks b).cmd = true)
    (hlen : 0 < (s.core.blocks b).len) {c₁ : DvdCore B} (hc : c₁.blocks = s.core.blocks) {delivered : B → Nat}
    (hdel : DvdDelivered s b cb result c₁.regs.residual delivered) :
    c₁.txdAfter b cb result = delivered b ∧ delivered b ≤ (s.core.blocks b).len ∧
      ((s.core.blocks b).len % 4 = 0 → delivered b % 4 = 0) ∧
      (delivered b = (s.core.blocks b).len → cb = .statebusycb ∧ (result = 1 ∨ result = 2 ∨ result &&& 8 ≠ 0)) := by
  obtain ⟨htxd, hless, hmax, hwhole⟩ := h.runs b hexec hr hlen
  unfold DvdCore.txdAfter
  rw [hc]
  rcases hdel with ⟨rfl, hno⟩ | ⟨hres, rfl, ⟨ok, t, hw⟩, hcommand⟩
  · rw [if_neg fun e => e.2 (hno hr e.1)]
    exact ⟨htxd, Nat.le_of_lt hless, hwhole, fun e => absurd e (Nat.ne_of_lt hless)⟩
  · have h10 : result ≠ 0x10 := by
      rintro rfl
      rcases hres with e | e | e
      · cases e
      · cases e
      · exact e rfl
    by_cases hcb : cb = .statebusycb
    · obtain ⟨hread, hsize⟩ := DvdWaiting.read hw hr hcb
      obtain ⟨hle, hmod⟩ := hcommand _ _ _ hread
      rw [if_pos ⟨hcb, h10⟩]
      have hdeliver : s.deliver c₁.regs.residual b = s.delivered b +
          (min (u32 ((s.core.blocks b).len + 2 ^ 32 - (s.core.blocks b).txdsize)) 0x80000 - c₁.regs.residual) := by
        unfold DvdSys.deliver DvdCore.nextRead at *
        rw [hread, hexec]
        exact Function.update_self ..
      rw [← hw.toDvdAt.txd hr] at hsize
      rw [hdeliver, hsize]
      unfold u32 at *
      refine ⟨?_, ?_, ?_, fun _ => ⟨hcb, hres⟩⟩ <;> omega
    · rw [if_neg fun e => hcb e.1]
      have hnot : s.core.low.reads = false := Bool.eq_false_iff.2 fun e => hcb (DvdWaiting.reading hw e).1
      rw [DvdSys.deliver_eq hnot]
      exact ⟨htxd, Nat.le_of_lt hless, hwhole, fun e => absurd e (Nat.ne_of_lt hless)⟩

theorem DvdSys.deliver_other (hexec : s.core.executing = .block b) {x : B} (hx : x ≠ b) (residual : Nat) :
    s.deliver residual x = s.delivered x := by
  unfold DvdSys.deliver
  rw [hexec]
  cases s.core.low.command with
  | none => rfl
  | some command =>
    cases command with
    | read => exact Function.update_of_ne hx ..
    | waitCoverClose => rfl
    | other => rfl

end Called

/-! ## Steps -/

section Steps
variable {ok clean : Prop} {c c₀ : DvdCore B} {b : B} {cb : DvdLow} {t result : Nat} {s s' : DvdSys B}

theorem dvdUsers_of_mem {calls : List (DvdCall B)} {res : Int} (h : .user (.block b) res ∈ calls) : b ∈ dvdUsers calls :=
  List.mem_filterMap.2 ⟨_, h, rfl⟩

/-- What holds besides while a function of the driver runs for the block `b`. -/
structure DvdReadingMid (b : B) (c₀ : DvdCore B) (m : DvdSys B) : Prop where
  mid : DvdMid b c₀ m
  waits : ∀ x, x ≠ b → (c₀.blocks x).state = .WAITING → dvdReads (c₀.blocks x).cmd = true → 0 < (c₀.blocks x).len →
    DvdPart (c₀.blocks x) (m.delivered x)
  calls : ∀ x result, .user (.block x) result ∈ m.todo → dvdReadEnds (c₀.blocks x) (m.delivered x) result
  done : ∀ d ∈ m.done, dvdReadEnds d.blk d.delivered d.result

/-- A read that goes on is not delivered as a whole; one that ends well is. -/
theorem DvdReadingMid.outcome {m : DvdSys B} (h : DvdReadingMid b c₀ m) {calls extra : List (DvdCall B)}
    (hout : DvdOutcome False clean c₀ b t (c, calls)) (hextra : ∀ call ∈ extra, call.plain = true)
    (ht : dvdReads (c₀.blocks b).cmd = true → 0 < (c₀.blocks b).len → t = m.delivered b ∧ t ≤ (c₀.blocks b).len ∧
      (c₀.blocks b).len < 2 ^ 32 ∧ ((c₀.blocks b).len % 4 = 0 → t % 4 = 0))
    (hall : dvdReads (c₀.blocks b).cmd = true → 0 < (c₀.blocks b).len → t = (c₀.blocks b).len →
      c.executing = .dummy ∧ ((c.blocks b).state = .END ∨ (c.blocks b).state = .CANCELED)) :
    DvdReading (m.pushRun (c, calls ++ extra)) := by
  have hinv := h.mid.outcome hout hextra
  obtain ⟨back, hback, htodo⟩ := DvdSys.push_todo { m with core := c } (calls ++ extra)
  -- the block that executes goes on
  have hgoes : DvdAt c₀ b t c → dvdReads (c.blocks b).cmd = true → 0 < (c.blocks b).len → DvdPart (c.blocks b) (m.delivered b) := by
    intro hat hr hlen
    rw [hat.cmd] at hr
    rw [hat.len] at hlen
    obtain ⟨hdel, hle, hmax, hwhole⟩ := ht hr hlen
    refine ⟨(hat.txd hr).trans hdel, ?_, ?_, ?_⟩
    · rw [hat.len, ← hdel]
      refine Nat.lt_of_le_of_ne hle fun e => ?_
      rw [hat.executing] at hall
      cases (hall hr hlen e).1
    · rw [hat.len]
      exact hmax
    · rw [hat.len, ← hdel]
      exact hwhole
  have hothers : ∀ x, x ≠ b → c.blocks x = c₀.blocks x := by
    cases hout with
    | waits _ hw => exact hw.others
    | final hin _ _ _ => exact hin.others
    | stuck hin _ => exact hin.others
    | ends _ haft _ _ _ => exact haft.others
  have hruns : c.executing = .block b ∧ DvdAt c₀ b t c ∧ (∀ x res, DvdCall.user (.block x) res ∉ calls) ∧ (c.blocks b).state ≠ .WAITING ∨
      c.executing = .dummy ∧ (c.blocks b).state ≠ .WAITING ∧
        ∀ x res, .user (.block x) res ∈ calls → x = b ∧ dvdReadEnds (c.blocks b) (m.delivered b) res := by
    cases hout with
    | waits _ hw =>
      refine .inl ⟨hw.executing, hw.toDvdAt, (fun _ _ hm => by cases hm), fun e => ?_⟩
      have hlive := DvdWaiting.live hw
      rw [e] at hlive
      cases hlive
    | final hin _ _ _ => exact .inl ⟨hin.executing, hin.toDvdAt, (fun _ _ hm => by simp at hm), hin.notWaiting⟩
    | stuck hin _ => exact .inl ⟨hin.executing, hin.toDvdAt, (fun _ _ hm => by cases hm), hin.notWaiting⟩
    | @ends _ state canceling _ he haft _ hwaiting hread =>
      refine .inr ⟨haft.executing, (by rw [haft.state]; exact hwaiting), fun x res hm => ?_⟩
      have hx := dvdUsers_of_mem hm
      rw [he.calls.1] at hx
      refine ⟨List.mem_singleton.1 hx, fun hr hlen hcan => ?_⟩
      rw [haft.cmd] at hr
      rw [haft.len] at hlen ⊢
      obtain ⟨hdel, -⟩ := ht hr hlen
      rw [haft.state] at hcan ⊢
      rw [haft.state] at hall
      have hend : state = .END → t = (c₀.blocks b).len ∧ res = s32 (c₀.blocks b).len := by
        intro e
        obtain ⟨hfull, rfl⟩ := hread hr hlen e
        simp only [List.mem_cons, List.not_mem_nil, or_false, DvdCall.user.injEq, reduceCtorEq] at hm
        exact ⟨hfull, hm.2⟩
      exact ⟨⟨fun e => hdel.symm.trans (hend e).1, fun e => (hall hr hlen (hdel.trans e)).2.resolve_right hcan⟩, fun e => (hend e).2⟩
  have hdelivered : (DvdSys.push { m with core := c } (calls ++ extra)).delivered = m.delivered := by
    obtain ⟨todo, user, heq⟩ := DvdSys.push_eq { m with core := c } (calls ++ extra)
    rw [heq]
  unfold DvdSys.pushRun at hinv ⊢
  dsimp only at hinv ⊢
  constructor
  case inv => exact hinv
  case waits =>
    intro x hst
    rw [DvdSys.push_core] at hst ⊢
    rw [hdelivered]
    have hxb : x ≠ b := by
      rintro rfl
      rcases hruns with ⟨-, -, -, hne⟩ | ⟨-, hne, -⟩ <;> exact hne hst
    have hst' : (c₀.blocks x).state = .WAITING := (congrArg DvdBlock.state (hothers x hxb)).symm.trans hst
    show dvdReads (c.blocks x).cmd = true → 0 < (c.blocks x).len → DvdPart (c.blocks x) (m.delivered x)
    rw [hothers x hxb]
    exact h.waits x hxb hst'
  case runs =>
    intro x hx
    rw [DvdSys.push_core] at hx ⊢
    rw [hdelivered]
    rcases hruns with ⟨hexec, hat, -⟩ | ⟨hexec, -⟩
    · obtain rfl : b = x := DvdExec.block.inj (hexec.symm.trans hx)
      exact hgoes hat
    · cases hexec.symm.trans hx
  case calls =>
    intro x res hm
    rw [htodo] at hm
    rw [DvdSys.push_core, hdelivered]
    show dvdReadEnds (c.blocks x) (m.delivered x) res
    rcases List.mem_append.1 hm with hm | hm
    · rcases List.mem_append.1 hm with hm | hm
      · rcases hruns with ⟨-, -, hno, -⟩ | ⟨-, -, hcalls⟩
        · exact absurd hm (hno x res)
        · obtain ⟨rfl, hends⟩ := hcalls x res hm
          exact hends
      · cases hextra _ hm
    · rcases List.mem_append.1 hm with hm | hm
      · cases hback _ hm
      · have hxb : x ≠ b := by
          rintro rfl
          exact h.mid.runs.2 (dvdUsers_of_mem hm)
        rw [hothers x hxb]
        exact h.calls x res hm
  case done =>
    rw [DvdSys.push_done]
    exact h.done

theorem DvdReading.of_turned (h : DvdReading s) (ht : DvdTurned False clean s s') : DvdReading s' := by
  have hinv := h.inv.of_turned ht
  cases ht with
  | @idle c₁ extra htaken hcb hno hextra =>
    obtain ⟨back, hback, htodo⟩ := DvdSys.push_todo { s with core := c₁ } extra
    have hdelivered : (DvdSys.push { s with core := c₁ } extra).delivered = s.delivered := by
      obtain ⟨todo, user, heq⟩ := DvdSys.push_eq { s with core := c₁ } extra
      rw [heq]
    obtain ⟨regs, low, rfl⟩ := htaken.eq
    unfold DvdSys.pushRun at hinv ⊢
    dsimp only at hinv ⊢
    constructor
    case inv => exact hinv
    case waits =>
      rw [DvdSys.push_core, hdelivered]
      exact h.waits
    case runs =>
      rw [DvdSys.push_core, hdelivered]
      exact h.runs
    case calls =>
      intro x res hm
      rw [DvdSys.push_core, hdelivered]
      rw [htodo] at hm
      refine h.calls x res ?_
      rcases List.mem_append.1 hm with hm | hm
      · cases hextra _ hm
      · exact (List.mem_append.1 hm).resolve_left fun hm => by cases hback _ hm
    case done =>
      rw [DvdSys.push_done]
      exact h.done
  | @called b cb c₁ c m result calls extra hc hm htodo hcalled hmid hcall hout hextra hdel =>
    obtain ⟨hmem, -⟩ := dvdTodo_mem htodo
    obtain ⟨hblocks, hexec₁⟩ : c₁.blocks = s.core.blocks ∧ c₁.executing = s.core.executing := by
      obtain ⟨regs, low, rfl⟩ := hc
      exact ⟨rfl, rfl⟩
    have hexec : s.core.executing = .block b := hexec₁.symm.trans hcalled.executing
    have hdelivered := fun hr hlen => h.delivered hexec hr hlen hblocks hdel
    obtain ⟨delivered, todo, user, rfl⟩ := hm
    dsimp only at hdelivered
    have hother : ∀ x, x ≠ b → delivered x = s.delivered x := by
      intro x hx
      rcases hdel with ⟨rfl, -⟩ | ⟨-, rfl, -⟩
      · rfl
      · exact DvdSys.deliver_other hexec hx _
    have hmidr : DvdReadingMid b c₁ { s with delivered := delivered, todo := todo, user := user } := by
      refine ⟨hmid, fun x hxb => ?_, fun x res hm => ?_, h.done⟩
      · rw [hblocks]
        show _ → _ → _ → DvdPart (s.core.blocks x) (delivered x)
        rw [hother x hxb]
        exact h.waits x
      · have hxb : x ≠ b := by
          rintro rfl
          exact hmid.runs.2 (dvdUsers_of_mem hm)
        rw [hblocks]
        show dvdReadEnds (s.core.blocks x) (delivered x) res
        rw [hother x hxb]
        exact h.calls x res (hmem _ hm)
    refine hmidr.outcome hout (fun call hm => by rw [hextra call hm]; rfl) (fun hr hlen => ?_) fun hr hlen e => ?_
    · rw [hblocks] at hr hlen ⊢
      obtain ⟨heq, hle, hwhole, -⟩ := hdelivered hr hlen
      rw [heq]
      exact ⟨rfl, hle, (h.runs b hexec hr hlen).len, hwhole⟩
    · have hr' := hr
      have e' := e
      rw [hblocks] at hr' hlen e'
      obtain ⟨heq, -, -, hfull⟩ := hdelivered hr' hlen
      obtain ⟨rfl, hres⟩ := hfull (heq.symm.trans e')
      have hends := hcalled.read_ends hr hres e
      rw [hcall] at hends
      exact hends

theorem DvdReading.frame (h : DvdReading s) (hinv : DvdInv False s') (hblocks : s'.core.blocks = s.core.blocks)
    (hexec : ∀ x, s'.core.executing = .block x → s.core.executing = .block x)
    (htodo : ∀ x res, .user (.block x) res ∈ s'.todo → .user (.block x) res ∈ s.todo) (hdel : s'.delivered = s.delivered)
    (hdone : s'.done = s.done) : DvdReading s' := by
  constructor
  case inv => exact hinv
  case waits =>
    rw [hblocks, hdel]
    exact h.waits
  case runs =>
    rw [hblocks, hdel]
    exact fun x hx => h.runs x (hexec x hx)
  case calls =>
    rw [hblocks, hdel]
    exact fun x res hm => h.calls x res (htodo x res hm)
  case done =>
    rw [hdone]
    exact h.done

theorem DvdReading.stateready (h : DvdReading s.cleared) : DvdReading s.stateready := by
  have hinv := h.inv.stateready False.elim
  rcases h.inv.stateready_cases with ⟨-, heq⟩ | ⟨-, heq⟩ | ⟨p, b, rest, calls, extra, hq, -, -, hextra, hmid, c, hout, heq⟩
  · rw [heq]
    exact h
  · rw [heq] at hinv ⊢
    exact h.frame hinv rfl (fun _ hx => hx) (fun _ _ hm => hm) rfl rfl
  · rw [heq]
    have hwaiting : (s.core.blocks b).state = .WAITING := by
      refine h.inv.queued p b ?_
      rw [show s.cleared.waitingqueue p = b :: rest from hq]
      exact List.mem_cons_self
    have hpart := h.waits b hwaiting
    have hmidr : DvdReadingMid b (s.core.starting b) (s.starting p b rest) :=
      ⟨hmid, fun x _ => h.waits x, h.calls, h.done⟩
    refine hmidr.outcome (hout False False False.elim False.elim) (fun call hm => by rw [hextra call hm]; rfl) (fun hr hlen => ?_)
      fun hr hlen e => ?_
    · obtain ⟨htxd, hless, hmax, hwhole⟩ := hpart hr hlen
      exact ⟨htxd, Nat.le_trans (Nat.le_of_eq htxd) (Nat.le_of_lt hless), hmax, fun hmod => (congrArg (· % 4) htxd).trans (hwhole hmod)⟩
    · obtain ⟨htxd, hless, -, -⟩ := hpart hr hlen
      exact absurd (htxd.symm.trans e) (Nat.ne_of_lt hless)

theorem DvdReading.issuecommand (h : DvdReading s) (hi : s.idle = true ∨ s.user = true) (hpend : s.pending b = false) {blk : DvdBlock}
    (hv : blk.valid) (hlen : blk.len < 2 ^ 32) (htxd : dvdReads blk.cmd = true → blk.txdsize = 0) (prio : Fin 4) :
    DvdReading (s.issuecommand prio b blk) := by
  have hne : ∀ x, x ≠ b → (s.enqueued prio b blk).core.blocks x = s.core.blocks x ∧
      (s.enqueued prio b blk).delivered x = s.delivered x :=
    fun x hx => ⟨Function.update_of_ne hx .., Function.update_of_ne hx ..⟩
  have henq : DvdReading (s.enqueued prio b blk) := by
    constructor
    case inv => exact h.inv.enqueued (h.inv.noLow hi) hpend hv prio
    case waits =>
      intro x
      by_cases hxb : x = b
      · subst hxb
        rw [show (s.enqueued prio x blk).core.blocks x = { blk with state := .WAITING } from Function.update_self ..,
          show (s.enqueued prio x blk).delivered x = 0 from Function.update_self ..]
        exact fun _ hr hpos => ⟨htxd hr, hpos, hlen, fun _ => rfl⟩
      · rw [(hne x hxb).1, (hne x hxb).2]
        exact h.waits x
    case runs =>
      intro x hx
      have hxb : x ≠ b := by
        rintro rfl
        have hp := (h.inv.runs x hx).1
        rw [hpend] at hp
        cases hp
      rw [(hne x hxb).1, (hne x hxb).2]
      exact h.runs x hx
    case calls =>
      intro x res hm
      have hxb : x ≠ b := by
        rintro rfl
        have hp := h.inv.called x (dvdUsers_of_mem hm)
        rw [hpend] at hp
        cases hp
      rw [(hne x hxb).1, (hne x hxb).2]
      exact h.calls x res hm
    case done => exact h.done
  rw [DvdSys.issuecommand_eq]
  split
  case isTrue hnull =>
    apply DvdReading.stateready
    exact henq.frame (henq.inv.cleared hnull.1) rfl (fun x hx => by cases hx) (fun _ _ hm => hm) rfl rfl
  case isFalse => exact henq

theorem DvdReading.resumes (h : DvdReading s) (hno : dvdNoLow s.todo) : DvdReading s.resume := by
  have hinv := h.inv.resumes hno False.elim
  unfold DvdSys.resume at hinv ⊢
  dsimp only at hinv ⊢
  split
  case isTrue hp =>
    apply DvdReading.stateready
    have hs : DvdInv False { s with pauseflag := false, pausingflag := false } :=
      h.inv.frame hno hno (.refl h.inv.resume) rfl (fun _ => .refl _) rfl rfl rfl h.inv.errors fun e => by cases e
    exact h.frame (hs.cleared (h.inv.pausing hp).1) rfl (fun x hx => by cases hx) (fun _ _ hm => hm) rfl rfl
  case isFalse hp =>
    rw [if_neg hp] at hinv
    exact h.frame hinv rfl (fun _ hx => hx) (fun _ _ hm => hm) rfl rfl

theorem DvdReading.cancelled (h : DvdReading s) (hinv : DvdInv False s')
    (hblocks : s'.core.blocks = Function.update s.core.blocks b { s.core.blocks b with state := .CANCELED })
    (hexec : ∀ x, s'.core.executing = .block x → s.core.executing = .block x ∧ x ≠ b)
    (htodo : ∀ x res, .user (.block x) res ∈ s'.todo → x ≠ b → .user (.block x) res ∈ s.todo) (hdel : s'.delivered = s.delivered)
    (hdone : s'.done = s.done) : DvdReading s' := by
  have hself : s'.core.blocks b = { s.core.blocks b with state := .CANCELED } := by rw [hblocks, Function.update_self]
  have hne : ∀ x, x ≠ b → s'.core.blocks x = s.core.blocks x := fun x hx => by rw [hblocks, Function.update_of_ne hx]
  constructor
  case inv => exact hinv
  case waits =>
    intro x hst
    have hxb : x ≠ b := by
      rintro rfl
      rw [hself] at hst
      cases hst
    rw [hne x hxb] at hst ⊢
    rw [hdel]
    exact h.waits x hst
  case runs =>
    intro x hx
    obtain ⟨hx', hxb⟩ := hexec x hx
    rw [hne x hxb, hdel]
    exact h.runs x hx'
  case calls =>
    intro x res hm
    by_cases hxb : x = b
    · subst hxb
      rw [hself]
      exact fun _ _ hst => absurd rfl hst
    · rw [hne x hxb, hdel]
      exact h.calls x res (htodo x res hm hxb)
  case done =>
    rw [hdone]
    exact h.done

theorem DvdReading.push (h : DvdReading s) {calls : List (DvdCall B)} (hinv : DvdInv False (s.push calls))
    (hcalls : ∀ call ∈ calls, call.plain = true) : DvdReading (s.push calls) := by
  obtain ⟨back, hback, htodo⟩ := s.push_todo calls
  refine h.frame hinv (by rw [DvdSys.push_core]) (fun x hx => by rw [DvdSys.push_core] at hx; exact hx) (fun x res hm => ?_) ?_
    (DvdSys.push_done _ _)
  · rw [htodo] at hm
    rcases List.mem_append.1 hm with hm | hm
    · cases hcalls _ hm
    · exact (List.mem_append.1 hm).resolve_left fun hm => by cases hback _ hm
  · obtain ⟨todo, user, heq⟩ := s.push_eq calls
    rw [heq]

theorem DvdReading.cancelAsync (h : DvdReading s) (hno : dvdNoLow s.todo) (e : DvdExec B) (id : Option Nat) :
    DvdReading (s.cancelAsync e id) := by
  have hinv := h.inv.cancelAsync hno e id
  have haccept : DvdReading (s.accept id e) :=
    h.frame (h.inv.accept hno id e) rfl (fun _ hx => hx) (fun _ _ hm => hm) rfl rfl
  have huser : ∀ (calls : List (DvdCall B)) (m : DvdSys B) (b x : B) (res : Int),
      (∀ call ∈ calls, call = .user (.block b) DVD_ERROR_CANCELED ∨ call.plain = true ∨ call = .stateready) →
      .user (.block x) res ∈ (m.push calls).todo → x ≠ b → m.todo = s.todo → .user (.block x) res ∈ s.todo := by
    intro calls m b x res hcalls hmem hxb hm
    obtain ⟨back, hback, htodo⟩ := m.push_todo calls
    rw [htodo, hm] at hmem
    rcases List.mem_append.1 hmem with hmem | hmem
    · rcases hcalls _ hmem with e | e | e
      · cases e
        exact absurd rfl hxb
      · cases e
      · cases e
    · exact (List.mem_append.1 hmem).resolve_left fun hmem => by cases hback _ hmem
  rcases h.inv.cancelAsync_cases hno e id with ⟨-, heq⟩ | ⟨-, heq⟩ | ⟨-, brk, heq⟩ | ⟨b, rfl, hst, heq⟩ | ⟨b, rfl, hst, heq⟩
  · rw [heq] at hinv ⊢
    exact haccept.push hinv fun call hm => by rw [List.mem_singleton.1 hm]; rfl
  · rw [heq]
    exact haccept
  · rw [heq] at hinv ⊢
    unfold DvdSys.cancelFlag at hinv ⊢
    split
    case isTrue => exact h
    case isFalse hc =>
      rw [if_neg hc] at hinv
      exact h.frame hinv rfl (fun _ hx => hx) (fun _ _ hm => hm) rfl rfl
  · rw [heq] at hinv ⊢
    unfold DvdSys.cancelWaiting at hinv ⊢
    refine h.cancelled (b := b) hinv (by rw [DvdSys.push_core]; rfl) (fun x hx => ?_) (fun x res hm hxb => ?_) ?_ (DvdSys.push_done _ _)
    · rw [DvdSys.push_core] at hx
      refine ⟨hx, ?_⟩
      rintro rfl
      exact h.inv.notWaiting hx hst
    · refine huser _ _ b x res (fun call hm => ?_) hm hxb rfl
      simp only [List.mem_cons, List.not_mem_nil, or_false] at hm
      rcases hm with rfl | rfl
      · exact .inl rfl
      · exact .inr (.inl rfl)
    · rw [DvdSys.push_delivered]
      rfl
  · rw [heq] at hinv ⊢
    unfold DvdSys.cancelCover at hinv ⊢
    refine h.cancelled (b := b) hinv (by rw [DvdSys.push_core]; rfl) (fun x hx => ?_) (fun x res hm hxb => ?_) ?_ (DvdSys.push_done _ _)
    · rw [DvdSys.push_core] at hx
      cases hx
    · refine huser _ _ b x res (fun call hm => ?_) hm hxb rfl
      simp only [List.mem_cons, List.not_mem_nil, or_false] at hm
      rcases hm with rfl | rfl | rfl
      · exact .inl rfl
      · exact .inr (.inl rfl)
      · exact .inr (.inr rfl)
    · rw [DvdSys.push_delivered]
      rfl

theorem DvdReading.answer (h : DvdReading s) (hno : dvdNoLow s.todo) (id : Option Nat) : DvdReading (s.answer id) := by
  have hinv := h.inv.answer hno id
  cases id with
  | none => exact h
  | some id => exact h.frame hinv rfl (fun _ hx => hx) (fun _ _ hm => hm) rfl rfl

theorem DvdReading.run (h : DvdReading s) (hlow : ∀ cb result rest, s.todo ≠ .low cb result :: rest) : DvdReading s.run := by
  have hinv := h.inv.run False.elim hlow
  cases htodo : s.todo with
  | nil =>
    have hnext : s.run = { s with user := false } := by
      unfold DvdSys.run
      rw [htodo]
    rw [hnext] at hinv ⊢
    exact h.frame hinv rfl (fun _ hx => hx) (fun _ _ hm => hm) rfl rfl
  | cons call rest =>
    rw [DvdSys.run_eq htodo] at hinv ⊢
    have hno' := h.inv.tail_noLow htodo
    have hrest : ∀ x res, DvdCall.user (.block x) res ∈ rest → .user (.block x) res ∈ s.todo := by
      rw [htodo]
      exact fun _ _ hm => List.mem_cons_of_mem _ hm
    have hpop : call.passes = true → DvdReading (s.popped rest) := fun hcall =>
      h.frame (h.inv.popped htodo hcall) rfl (fun _ hx => hx) hrest rfl rfl
    cases call with
    | clearwaitingqueue => exact (hpop rfl).frame hinv rfl (fun _ hx => hx) (fun _ _ hm => hm) rfl rfl
    | user e result =>
      cases e with
      | block b =>
        have hends := h.calls b result (by rw [htodo]; exact List.mem_cons_self)
        refine ⟨hinv, h.waits, h.runs, fun x res hm => h.calls x res (hrest x res hm), fun d hd => ?_⟩
        rcases List.mem_append.1 hd with hd | hd
        · exact h.done d hd
        · rw [List.mem_singleton.1 hd]
          exact hends
      | null => exact hpop rfl
      | dummy => exact hpop rfl
    | cancelcb e => exact (hpop rfl).answer hno' _
    | errorcancel e =>
      unfold DvdSys.runCall at hinv ⊢
      dsimp only at hinv ⊢
      split
      case isTrue hc =>
        rw [if_pos hc] at hinv
        have hnext : ∀ id, DvdInv False (DvdSys.answer { s.popped rest with core := { s.core with canceling := false } } id) →
            DvdReading (DvdSys.answer { s.popped rest with core := { s.core with canceling := false } } id) := by
          intro id hinv
          cases id with
          | none => exact h.frame hinv rfl (fun _ hx => hx) hrest rfl rfl
          | some id => exact h.frame hinv rfl (fun _ hx => hx) hrest rfl rfl
        exact hnext _ hinv
      case isFalse hc =>
        rw [if_neg hc] at hinv
        exact h.frame hinv rfl (fun _ hx => hx) hrest rfl rfl
    | mountcb e => exact (hpop rfl).frame hinv rfl (fun _ hx => hx) (fun _ _ hm => hm) rfl rfl
    | stateready => exact DvdReading.stateready (h.frame (h.inv.ready htodo) rfl (fun x hx => by cases hx) hrest rfl rfl)
    | low cb result => exact absurd htodo (hlow cb result rest)
    | resumed => exact (hpop rfl).frame hinv rfl (fun _ hx => hx) (fun _ _ hm => hm) rfl rfl
    | unbreak => exact (hpop rfl).frame hinv rfl (fun _ hx => hx) (fun _ _ hm => hm) rfl rfl
    | cb id e => exact (hpop rfl).answer hno' id
    | cancelAll id =>
      have hs := hpop rfl
      rcases (s.popped rest).cancelAll_cases id with ⟨p, b, rest', hq, heq⟩ | ⟨-, heq⟩ | ⟨-, heq⟩
      · rw [heq]
        have hno'' : dvdNoLow (DvdCall.cancelAll id :: rest) := fun cb r hm => by
          rcases List.mem_cons.1 hm with e | hm
          · cases e
          · exact hno' cb r hm
        have hpopped : DvdReading { s.popped rest with
            waitingqueue := Function.update s.waitingqueue p rest', todo := .cancelAll id :: rest } := by
          refine hs.frame ?_ rfl (fun _ hx => hx) (fun x res hm => ?_) rfl rfl
          · exact hs.inv.frame hno' hno'' (.refl hs.inv.resume) rfl (dvdQueue_update hq) rfl rfl rfl hs.inv.errors hs.inv.pausing
          · rcases List.mem_cons.1 hm with e | hm
            · cases e
            · exact hm
        exact hpopped.cancelAsync hno'' _ _
      · rw [heq] at hinv ⊢
        have haccept : DvdReading ((s.popped rest).accept id .null) :=
          hs.frame (hs.inv.accept hno' id .null) rfl (fun _ hx => hx) (fun _ _ hm => hm) rfl rfl
        exact haccept.push hinv fun call hm => by rw [List.mem_singleton.1 hm]; rfl
      · rw [heq]
        exact hs.cancelAsync hno' _ id
    | resume => exact (hpop rfl).resumes hno'
    | back => exact (hpop rfl).frame hinv rfl (fun _ hx => hx) (fun _ _ hm => hm) rfl rfl

theorem DvdReading.next (h : DvdReading s) {e : DvdEvent B} (he : dvdGuard s e) : DvdReading (dvdNext s e) := by
  have hturned : e.turns s → DvdReading (dvdNext s e) := by
    intro hturns
    have ht : DvdTurned False False s (dvdNext s e) := h.inv.turned he hturns False.elim False.elim
    exact h.of_turned ht
  have hinv := h.inv.next he False.elim
  cases e with
  | issue prio b blk =>
    exact h.issuecommand he.1 he.2.1 ⟨he.2.2.1, he.2.2.2.1⟩ he.2.2.2.2.1 (fun hr => he.2.2.2.2.2 (of_decide_eq_true hr)) prio
  | pause => exact h.frame hinv rfl (fun _ hx => hx) (fun _ _ hm => hm) rfl rfl
  | resume => exact h.resumes (h.inv.noLow he)
  | cancel b id => exact h.cancelAsync (h.inv.noLow he.1) _ id
  | cancelAll id =>
    have hpause : DvdReading s.pause := h.frame (h.inv.pause (h.inv.noLow he.1)) rfl (fun _ hx => hx) (fun _ _ hm => hm) rfl rfl
    have hpush : DvdInv False (s.pause.push [.cancelAll id, .resume]) := hinv
    refine hpause.push hpush fun call hm => ?_
    simp only [List.mem_cons, List.not_mem_nil, or_false] at hm
    rcases hm with rfl | rfl <;> rfl
  | run =>
    by_cases hlow : ∃ cb result rest, s.todo = .low cb result :: rest
    · exact hturned hlow
    · exact h.run fun cb result rest e => hlow ⟨cb, result, rest, e⟩
  | _ => exact hturned trivial

theorem dvdReading_init (drive : DvdDrive) : DvdReading (dvdInit (B := B) drive) where
  inv := dvdInv_init drive
  waits := fun x hx => by cases hx
  runs := fun x hx => by cases hx
  calls := fun x res hm => by cases hm
  done := fun d hd => by cases hd

end Steps

/-! ## Runs -/

/-- Each read goes on where what is delivered ends, and what a read is called back with says whether all of it is delivered. -/
structure DvdReadsAll (s : DvdSys B) : Prop where
  read : ∀ b, s.core.executing = .block b → dvdReads (s.core.blocks b).cmd = true → 0 < (s.core.blocks b).len →
    ∀ buf len offset, s.core.low.command = some (.read buf len offset) →
      buf = (s.core.blocks b).buf + s.delivered b ∧ offset = (s.core.blocks b).offset + s.delivered b ∧
        len = min ((s.core.blocks b).len - s.delivered b) 0x80000 ∧
          ((s.core.blocks b).len % 4 = 0 → (s.core.blocks b).offset % 4 = 0 → offset % 4 = 0)
  less : ∀ b, s.core.executing = .block b → dvdReads (s.core.blocks b).cmd = true → 0 < (s.core.blocks b).len →
    s.delivered b < (s.core.blocks b).len
  ends : ∀ d ∈ s.done, dvdReadEnds d.blk d.delivered d.result

/-- **A read is delivered as a whole.** -/
theorem dvd_read_covers (drive : DvdDrive) {es : List (DvdEvent B)} (hl : dvdSystem.Legal (dvdInit (B := B) drive) es) :
    DvdReadsAll (dvdSystem.run (dvdInit drive) es) := by
  have hstep : ∀ (s : DvdSys B) e, DvdReading s → dvdSystem.enabled s e → DvdReading (dvdNext s e) := fun s e hs he => hs.next he
  have h := hl.invariant hstep (dvdReading_init drive)
  generalize dvdSystem.run (dvdInit (B := B) drive) es = s at h
  refine ⟨fun b hexec hr hlen buf len offset hcommand => ?_, fun b hexec hr hlen => (h.runs b hexec hr hlen).less, h.done⟩
  have hreads : s.core.low.reads = true := by
    unfold DvdLowLevel.reads
    rw [hcommand]
  obtain ⟨cb, hw⟩ : ∃ cb, DvdWaiting False s.core b (s.core.blocks b).txdsize cb s.core := by
    rcases h.inv.live b hexec with ⟨hsteady, -⟩ | ⟨cb, rest, hf⟩
    · cases hsteady with
      | waits cb hw => exact ⟨cb, hw⟩
      | stuck hin _ => cases hin.noRead.symm.trans hreads
    · cases hf.inside.noRead.symm.trans hreads
  obtain ⟨htxd, hless, hmax, hwhole⟩ := h.runs b hexec hr hlen
  obtain ⟨hread, -⟩ := DvdWaiting.read hw hr (DvdWaiting.reading hw hreads).1
  unfold DvdCore.nextRead at hread
  rw [hcommand, Option.some.injEq, DvdCommand.read.injEq, htxd] at hread
  obtain ⟨rfl, rfl, rfl⟩ := hread
  refine ⟨rfl, rfl, ?_, fun hmod hoff => ?_⟩
  · unfold u32
    omega
  · have := hwhole hmod
    omega

/-- A read that fails after half of its bytes, and is retried. -/
theorem dvd_read_covers_retry :
    DvdReadsAll (dvdSystem.run (dvdInit (B := Unit) dvdDrive0) [.issue 2 () dvdRead0, .interrupt true { dvdRegs0 with residual := 32 }, .run,
      .interrupt false { dvdRegs0 with error := 0x00031100 }, .run, .interrupt false dvdRegs0, .run, .run, .run]) :=
  dvd_read_covers dvdDrive0 (by decide)

end Libogc
