import Libogc.Si.N64
import Libogc.Si.SiRuns
/-!
# N64Runs — a channel that is polled has a read outstanding

A bit of `PollingBits` is set after the read that it stands for was started, and cleared when that read calls `SamplingHandler`.  As long as
no read of the position interrupt ends in the call that starts it (`N64State.later`), each bit belongs to a read that waits for its type, or
for its transfer (`N64Core`).
-/
namespace Libogc

open Runs

/-! ## Packets -/

section Packets
variable {s : SiState} {c d : Fin 4} {cb : Nat}

/-- A transfer with this callback is on the bus for the channel, or in its slot. -/
def SiState.carries (s : SiState) (c : Fin 4) (cb : Nat) : Prop :=
  ((s.sipacket c).chan = c.val ∧ (s.sipacket c).xfer.callback = cb) ∨ (s.sicntrl.chan = c.val ∧ s.sicntrl.callback = cb)

theorem fin_ne_none (c : Fin 4) : (c.val : Int) ≠ -1 := by omega

theorem SiState.carries.launched (h : s.carries c cb) (alarm : Option Nat) (hidle : s.sicntrl.chan = -1) :
    (((siTransferPacket s d).1.setAlarm d alarm).clear d).carries c cb := by
  have hslot : (s.sipacket c).chan = c.val ∧ (s.sipacket c).xfer.callback = cb :=
    h.resolve_right fun hbus => fin_ne_none c (hbus.1.symm.trans hidle)
  unfold siTransferPacket siTransfer
  rw [if_neg fun hne => hne hidle]
  by_cases hcd : c = d
  · subst hcd
    exact .inr hslot
  · refine .inl ?_
    show (Function.update s.sipacket d _ c).chan = _ ∧ (Function.update s.sipacket d _ c).xfer.callback = _
    rw [Function.update_of_ne hcd]
    exact hslot

theorem SiState.carries.transfernext (now : Fin 4 → Nat) (n : Nat) : ∀ {s : SiState} {chan : Fin 4}, s.carries c cb →
    (siTransfernext s now n chan).carries c cb := by
  induction n with
  | zero => exact fun h => h
  | succ n ih =>
    intro s chan h
    unfold siTransfernext
    dsimp only
    split
    case isTrue =>
      by_cases hidle : s.sicntrl.chan = -1
      · have hsent : (siTransferPacket s (chan + 1)).2 = true := by
          unfold siTransferPacket siTransfer
          rw [if_neg fun hne => hne hidle]
        rw [if_pos hsent]
        exact ih (h.launched none hidle)
      · have hsame : siTransferPacket s (chan + 1) = (s, false) := if_pos hidle
        rw [hsame]
        exact h
    case isFalse => exact ih h

theorem SiState.carries.alarmhandler (h : s.carries c cb) : (siAlarmhandler (s.setAlarm d none) d).carries c cb := by
  unfold siAlarmhandler
  split
  case isTrue =>
    dsimp only
    by_cases hidle : s.sicntrl.chan = -1
    · have hsent : (siTransferPacket (s.setAlarm d none) d).2 = true := by
        unfold siTransferPacket siTransfer
        rw [if_neg fun hne => hne hidle]
      rw [if_pos hsent]
      exact SiState.carries.launched (s := s.setAlarm d none) h none hidle
    · have hsame : siTransferPacket (s.setAlarm d none) d = (s.setAlarm d none, false) := if_pos hidle
      rw [hsame]
      exact h
  case isFalse => exact h

theorem SiState.carries.interrupthandler (h : s.carries c cb) (hne : s.sicntrl.chan = c.val → s.sicntrl.callback ≠ cb) (done : Nat)
    (now : Fin 4 → Nat) : (siInterrupthandler s done now).carries c cb := by
  have hslot : (s.sipacket c).chan = c.val ∧ (s.sipacket c).xfer.callback = cb := h.resolve_right fun hbus => hne hbus.1 hbus.2
  unfold siInterrupthandler
  refine SiState.carries.transfernext now 4 (.inl ?_)
  unfold siCompletetransfer
  dsimp only
  split
  · exact hslot
  · exact hslot

/-- The channel takes a packet. -/
def SiState.free (s : SiState) (c : Fin 4) : Prop := (s.sipacket c).chan = -1 ∧ s.sicntrl.chan ≠ c.val

instance (s : SiState) (c : Fin 4) : Decidable (s.free c) := inferInstanceAs (Decidable (_ ∧ _))

/-- **A call of `SI_Transfer`** is refused, or its transfer is on the bus or in the slot. -/
theorem SITransfer_outcome (s : SiState) (d : Fin 4) (x : SiXfer) (usDelay now start : Nat) :
    (¬ s.free d ∧ SITransfer s d x usDelay now start = (s, 0)) ∨
      (s.free d ∧ (SITransfer s d x usDelay now start).2 = 1 ∧
        ((s.sicntrl.chan = -1 ∧ (SITransfer s d x usDelay now start).1.sipacket = s.sipacket ∧
            (SITransfer s d x usDelay now start).1.sicntrl = ⟨d.val, x.inBytes, x.inp, x.callback⟩) ∨
          ∃ p : SiPacket, p.chan = (d.val : Int) ∧ p.xfer = x ∧ (SITransfer s d x usDelay now start).1.sipacket = Function.update s.sipacket d p ∧
            (SITransfer s d x usDelay now start).1.sicntrl = s.sicntrl)) := by
  unfold SITransfer
  dsimp only
  generalize (if usDelay ≠ 0 then (s.xferTime d + microsecsToTicks usDelay) % 2 ^ 64 else now) = fire
  by_cases hfree : s.free d
  · right
    rw [if_pos (show (s.sipacket d).chan = -1 ∧ s.sicntrl.chan ≠ d.val from hfree)]
    refine ⟨hfree, ?_⟩
    by_cases hdue : siDue fire now
    · rw [if_pos hdue]
      by_cases hidle : s.sicntrl.chan = -1
      · have hbus : ¬ ({ s with accepted := s.accepted ++ [((d.val : Int), x)] } : SiState).busy := fun hne => hne hidle
        rw [siTransfer_idle hbus]
        exact ⟨rfl, .inl ⟨hidle, rfl, rfl⟩⟩
      · have hbus : ({ s with accepted := s.accepted ++ [((d.val : Int), x)] } : SiState).busy := hidle
        rw [siTransfer_busy hbus]
        exact ⟨rfl, .inr ⟨_, rfl, rfl, rfl, rfl⟩⟩
    · rw [if_neg hdue]
      exact ⟨rfl, .inr ⟨_, rfl, rfl, rfl, rfl⟩⟩
  · rw [if_neg (show ¬ ((s.sipacket d).chan = -1 ∧ s.sicntrl.chan ≠ d.val) from hfree)]
    exact .inl ⟨hfree, rfl⟩

theorem SiState.carries.transfer (h : s.carries c cb) (x : SiXfer) (usDelay now start : Nat) :
    (SITransfer s d x usDelay now start).1.carries c cb := by
  rcases SITransfer_outcome s d x usDelay now start with ⟨-, heq⟩ | ⟨hfree, -, ⟨hidle, hpackets, -⟩ | ⟨p, -, -, hpackets, hcntrl⟩⟩
  · rw [heq]
    exact h
  · refine .inl ?_
    rw [hpackets]
    exact h.resolve_right fun hbus => fin_ne_none c (hbus.1.symm.trans hidle)
  · unfold SiState.carries
    rw [hpackets, hcntrl]
    refine h.imp_left fun hslot => ?_
    have hcd : c ≠ d := by
      rintro rfl
      exact fin_ne_none c (hslot.1.symm.trans hfree.1)
    rw [Function.update_of_ne hcd]
    exact hslot

theorem SITransfer_free (x : SiXfer) (usDelay now start : Nat) : (SITransfer s c x usDelay now start).2 ≠ 0 ↔ s.free c := by
  rcases SITransfer_outcome s c x usDelay now start with ⟨hno, heq⟩ | ⟨hfree, hone, -⟩
  · rw [heq]
    exact iff_of_false (fun hne => hne rfl) hno
  · rw [hone]
    exact iff_of_true Nat.one_ne_zero hfree

theorem SITransfer_carries (h : s.free c) (x : SiXfer) (usDelay now start : Nat) :
    (SITransfer s c x usDelay now start).1.carries c x.callback := by
  rcases SITransfer_outcome s c x usDelay now start with ⟨hno, -⟩ | ⟨-, -, ⟨-, -, hcntrl⟩ | ⟨p, hchan, hxfer, hpackets, -⟩⟩
  · exact absurd h hno
  · refine .inr ?_
    rw [hcntrl]
    exact ⟨rfl, rfl⟩
  · refine .inl ?_
    rw [hpackets, Function.update_self, hchan, hxfer]
    exact ⟨rfl, rfl⟩

theorem SITransfer_free_ne (hcd : c ≠ d) (x : SiXfer) (usDelay now start : Nat) : (SITransfer s d x usDelay now start).1.free c ↔ s.free c := by
  unfold SiState.free
  rcases SITransfer_outcome s d x usDelay now start with ⟨-, heq⟩ | ⟨-, -, ⟨hidle, hpackets, hcntrl⟩ | ⟨p, -, -, hpackets, hcntrl⟩⟩
  · rw [heq]
  · rw [hpackets, hcntrl, hidle]
    refine and_congr_right fun _ => iff_of_true (fun e => hcd (Fin.ext (Int.ofNat.inj e).symm)) (fin_ne_none c).symm
  · rw [hpackets, hcntrl, Function.update_of_ne hcd]

end Packets

/-! ## Bits -/

section Bits
variable {c d : Fin 4} {x : BitVec 32}

theorem siChanBit_and : ∀ {c d : Fin 4}, c ≠ d → siChanBit d &&& siChanBit c = 0 := by decide

theorem siChanBit_not : ∀ {c d : Fin 4}, c ≠ d → ~~~siChanBit d &&& siChanBit c = siChanBit c := by decide

theorem siChanBit_set_ne (h : c ≠ d) : (x ||| siChanBit d) &&& siChanBit c = x &&& siChanBit c := by
  rw [BitVec.and_or_distrib_right, siChanBit_and h]
  exact BitVec.or_zero

theorem siChanBit_clear_ne (h : c ≠ d) : (x &&& ~~~siChanBit d) &&& siChanBit c = x &&& siChanBit c := by
  rw [BitVec.and_assoc, siChanBit_not h]

theorem siChanBit_clear : (x &&& ~~~siChanBit c) &&& siChanBit c = 0 := by
  rw [BitVec.and_assoc, BitVec.and_comm (~~~siChanBit c), BitVec.and_not_self]
  exact BitVec.and_zero

end Bits

/-! ## Reads -/

namespace N64State

/-- What `N64_RefreshPositionInterrupt` sets. -/
def wanted (s : N64State) : Bool := s.refreshPositionInterrupt.position

/-- The read of the channel waits for the type, or for its transfer. -/
def outstanding (s : N64State) (c : Fin 4) : Prop := s.typeCallback c = true ∨ s.si.carries c n64HandlerPlace

/-- What the type cache leaves alone. -/
def polls (s : N64State) : (Fin 4 → Option N64Callback) × BitVec 32 × BitVec 32 × BitVec 32 × Nat × Bool × Bool × List N64Call × Bool :=
  (s.callback, s.enabledBits, s.pollingBits, s.responseBits, s.tvMode, s.position, s.samplingCallback, s.todo, s.user)

end N64State

/-- Each bit belongs to a read of the position interrupt, and each read is outstanding. -/
structure N64Core (s : N64State) : Prop where
  polled : ∀ c, s.pollingBits &&& siChanBit c ≠ 0 → s.callback c = some .sampling
  outstanding : ∀ c, s.callback c ≠ none → s.outstanding c

/-- But for the channel whose callback is called now. -/
structure N64Half (chan : Fin 4) (s : N64State) : Prop where
  polled : ∀ c, s.pollingBits &&& siChanBit c ≠ 0 → s.callback c = some .sampling
  outstanding : ∀ c, c ≠ chan → s.callback c ≠ none → s.outstanding c

/-- What a function of the library comes to. -/
structure N64Does (s : N64State) (r : N64Run) : Prop where
  core : N64Core r.1
  settled : s.position = s.wanted → .refresh ∈ r.2 ∨ r.1.position = r.1.wanted
  calls : ∀ call ∈ r.2, call = .user ∨ call = .refresh
  todo : r.1.todo = s.todo
  user : r.1.user = s.user

section Reads
variable {s s' : N64State} {r : N64Run} {c chan : Fin 4}

theorem N64Core.half (h : N64Core s) (chan : Fin 4) : N64Half chan s := ⟨h.polled, fun c _ => h.outstanding c⟩

theorem N64Half.core (h : N64Half chan s) (hout : s.callback chan ≠ none → s.outstanding chan) : N64Core s := by
  refine ⟨h.polled, fun c hc => ?_⟩
  by_cases hcd : c = chan
  · subst hcd
    exact hout hc
  · exact h.outstanding c hcd hc

theorem N64Half.quiet (h : N64Half chan s) (hpolls : s'.polls = s.polls) (hout : ∀ c, c ≠ chan → s.outstanding c → s'.outstanding c) :
    N64Half chan s' := by
  simp only [N64State.polls, Prod.mk.injEq] at hpolls
  obtain ⟨hcallback, -, hpolling, -⟩ := hpolls
  constructor
  · rw [hpolling, hcallback]
    exact h.polled
  · rw [hcallback]
    exact fun c hcd hc => hout c hcd (h.outstanding c hcd hc)

theorem N64Core.quiet (h : N64Core s) (hpolls : s'.polls = s.polls) (hout : ∀ c, s.outstanding c → s'.outstanding c) : N64Core s' := by
  simp only [N64State.polls, Prod.mk.injEq] at hpolls
  obtain ⟨hcallback, -, hpolling, -⟩ := hpolls
  constructor
  · rw [hpolling, hcallback]
    exact h.polled
  · rw [hcallback]
    exact fun c hc => hout c (h.outstanding c hc)

theorem N64State.wanted_congr (hpolls : s'.polls = s.polls) : s'.wanted = s.wanted ∧ s'.position = s.position := by
  simp only [N64State.polls, Prod.mk.injEq] at hpolls
  obtain ⟨-, henabled, hpolling, -, htv, hposition, -⟩ := hpolls
  unfold N64State.wanted N64State.refreshPositionInterrupt
  dsimp only
  rw [henabled, hpolling, htv]
  exact ⟨rfl, hposition⟩

theorem N64Does.quiet (h : N64Does s' r) (hpolls : s'.polls = s.polls) : N64Does s r := by
  obtain ⟨hwanted, hposition⟩ := N64State.wanted_congr hpolls
  simp only [N64State.polls, Prod.mk.injEq] at hpolls
  obtain ⟨-, -, -, -, -, -, -, htodo, huser⟩ := hpolls
  exact ⟨h.core, fun hp => h.settled (by rw [hposition, hwanted, hp]), h.calls, h.todo.trans htodo, h.user.trans huser⟩

theorem N64Does.of_quiet (h : N64Core s') (hpolls : s'.polls = s.polls) : N64Does s (s', []) :=
  N64Does.quiet ⟨h, .inr, fun _ hm => (by cases hm), rfl, rfl⟩ hpolls

theorem N64Half.callCallback (h : N64Half chan s) (result : Int) : N64Does s (s.callCallback chan result) := by
  have hself : Function.update s.callback chan none chan = none := Function.update_self ..
  have hne : ∀ c, c ≠ chan → Function.update s.callback chan none c = s.callback c := fun c hc => Function.update_of_ne hc ..
  -- a block that is not one of the position interrupt has no bit
  have hset : s.callback chan ≠ some .sampling → N64Core (s.setCallback chan none) := by
    intro hnot
    constructor
    · intro c hc
      have hcd : c ≠ chan := by
        rintro rfl
        exact hnot (h.polled c hc)
      exact (hne c hcd).trans (h.polled c hc)
    · intro c hc
      have hcd : c ≠ chan := by
        rintro rfl
        exact hc hself
      exact h.outstanding c hcd ((hne c hcd) ▸ hc)
  unfold N64State.callCallback
  cases hcb : s.callback chan with
  | none => exact .of_quiet (h.core fun hne => absurd hcb hne) rfl
  | some cb =>
    cases cb with
    | default =>
      exact ⟨hset (by rw [hcb]; decide), .inr, (fun _ hm => by cases hm), rfl, rfl⟩
    | user =>
      exact ⟨hset (by rw [hcb]; decide), .inr, (fun _ hm => .inl (List.mem_singleton.1 hm)), rfl, rfl⟩
    | sampling =>
      dsimp only
      -- the callbacks and the reads after it, whatever else is set
      have hcore : ∀ s' : N64State, s'.callback = Function.update s.callback chan none → (∀ c, s.outstanding c → s'.outstanding c) →
          (∀ c, s'.pollingBits &&& siChanBit c ≠ 0 → c ≠ chan ∧ s.pollingBits &&& siChanBit c ≠ 0) → N64Core s' := by
        intro s' hcallback hout hbits
        constructor
        · intro c hc
          obtain ⟨hcd, hbit⟩ := hbits c hc
          rw [hcallback, hne c hcd]
          exact h.polled c hbit
        · intro c hc
          rw [hcallback] at hc
          have hcd : c ≠ chan := by
            rintro rfl
            exact hc hself
          exact hout c (h.outstanding c hcd ((hne c hcd) ▸ hc))
      have hdone : ∀ s' : N64State, N64Core s' → s'.todo = s.todo → s'.user = s.user → N64Does s (s'.refreshPositionInterrupt, []) :=
        fun s' hc ht hu => ⟨⟨hc.polled, hc.outstanding⟩, fun _ => .inr rfl, (fun _ hm => by cases hm), ht, hu⟩
      have hcalls : ∀ s' : N64State, N64Core s' → s'.todo = s.todo → s'.user = s.user → N64Does s (s', [.user, .refresh]) := by
        refine fun s' hc ht hu => ⟨hc, fun _ => .inl (List.mem_cons_of_mem _ List.mem_cons_self), fun call hm => ?_, ht, hu⟩
        rcases List.mem_cons.1 hm with rfl | hm
        · exact .inl rfl
        · exact .inr (List.mem_singleton.1 hm)
      unfold N64State.samplingHandler
      dsimp only
      generalize hs₁ : (if result = N64_ERR_NO_CONTROLLER then
        { s.setCallback chan none with enabledBits := (s.setCallback chan none).enabledBits &&& ~~~siChanBit chan }
        else s.setCallback chan none) = s₁
      have hfields : s₁.callback = Function.update s.callback chan none ∧ s₁.pollingBits = s.pollingBits ∧ s₁.si = s.si ∧
          s₁.typeCallback = s.typeCallback ∧ s₁.todo = s.todo ∧ s₁.user = s.user := by
        subst hs₁
        split
        · exact ⟨rfl, rfl, rfl, rfl, rfl, rfl⟩
        · exact ⟨rfl, rfl, rfl, rfl, rfl, rfl⟩
      obtain ⟨hcallback, hpolling, hsi, htype, htodo, huser⟩ := hfields
      have hout : ∀ c, s.outstanding c → s₁.outstanding c := by
        unfold N64State.outstanding
        rw [hsi, htype]
        exact fun _ ho => ho
      split
      case isTrue =>
        have hcleared : ∀ c, (s₁.pollingBits &&& ~~~siChanBit chan) &&& siChanBit c ≠ 0 → c ≠ chan ∧ s.pollingBits &&& siChanBit c ≠ 0 := by
          intro c hc
          have hcd : c ≠ chan := by
            rintro rfl
            exact hc siChanBit_clear
          rw [siChanBit_clear_ne hcd, hpolling] at hc
          exact ⟨hcd, hc⟩
        split
        · exact hcalls _ (hcore _ hcallback hout hcleared) htodo huser
        · exact hdone _ (hcore _ hcallback hout hcleared) htodo huser
      case isFalse hbit =>
        have hbits : ∀ c, s₁.pollingBits &&& siChanBit c ≠ 0 → c ≠ chan ∧ s.pollingBits &&& siChanBit c ≠ 0 := by
          intro c hc
          refine ⟨?_, by rwa [hpolling] at hc⟩
          rintro rfl
          exact hbit hc
        exact hdone _ (hcore _ hcallback hout hbits) htodo huser

theorem N64State.callCallback_callback (s : N64State) (chan : Fin 4) (result : Int) : (s.callCallback chan result).1.callback chan = none := by
  have hself : Function.update s.callback chan none chan = none := Function.update_self ..
  unfold N64State.callCallback
  cases hcb : s.callback chan with
  | none => exact hcb
  | some cb =>
    cases cb with
    | default | user => exact hself
    | sampling =>
      dsimp only
      unfold N64State.samplingHandler
      dsimp only
      generalize hs₁ : (if result = N64_ERR_NO_CONTROLLER then
        { s.setCallback chan none with enabledBits := (s.setCallback chan none).enabledBits &&& ~~~siChanBit chan }
        else s.setCallback chan none) = s₁
      have hkept : s₁.callback chan = none := by
        subst hs₁
        split
        · exact hself
        · exact hself
      split
      · split
        · exact hkept
        · exact hkept
      · exact hkept

theorem N64Core.n64Handler (h : N64Half chan s) (type : BitVec 32) : N64Does s (s.n64Handler chan type) := h.callCallback _

theorem N64State.transfer_outstanding (h : s.outstanding c) (x : SiXfer) (usDelay : Nat) (t : Nat → Nat) :
    (s.transfer chan x usDelay t).outstanding c := h.imp_right fun hc => hc.transfer x usDelay _ _

theorem N64Half.typeCallbackOf (h : N64Half chan s) (type : BitVec 32) (t : Nat → Nat) : N64Does s (s.typeCallbackOf chan type t) := by
  unfold N64State.typeCallbackOf
  split
  · exact h.callCallback _
  split
  · exact h.callCallback _
  case isFalse hfree =>
    have hcarries := SITransfer_carries ((SITransfer_free (n64Xfer chan) 65 (t 0) (t 1)).1 hfree) (n64Xfer chan) 65 (t 0) (t 1)
    refine .of_quiet (N64Half.core (h.quiet rfl fun c _ ho => ?_) fun _ => .inr hcarries) rfl
    exact N64State.transfer_outstanding ho _ _ _

theorem N64State.requestType_spec (s : N64State) (chan : Fin 4) (t : Nat → Nat) :
    (s.requestType chan t).polls = s.polls ∧ ∀ c, s.outstanding c → (s.requestType chan t).outstanding c :=
  ⟨rfl, fun _ ho => N64State.transfer_outstanding (s := (s.setType chan SI_ERROR_BUSY).setTypeTime chan (t 1)) ho _ _ _⟩

theorem N64State.getType_spec (s : N64State) (chan : Fin 4) (t : Nat → Nat) :
    (s.getType chan t).1.polls = s.polls ∧ ∀ c, s.outstanding c → (s.getType chan t).1.outstanding c := by
  unfold N64State.getType
  dsimp only
  split
  · split
    · exact ⟨rfl, fun _ ho => ho⟩
    · exact s.requestType_spec chan t
  split
  · exact ⟨rfl, fun _ ho => ho⟩
  split
  · exact s.requestType_spec chan t
  · exact s.requestType_spec chan t

theorem N64Half.getTypeAsync (h : N64Half chan s) (t : Nat → Nat) : N64Does s (s.getTypeAsync chan t) := by
  obtain ⟨hpolls, hout⟩ := s.getType_spec chan t
  have hhalf := h.quiet hpolls fun c _ => hout c
  unfold N64State.getTypeAsync
  dsimp only
  split
  · refine N64Does.quiet (.of_quiet (N64Half.core (hhalf.quiet rfl fun c hc ho => ?_) fun _ => .inl ?_) rfl) hpolls
    · refine ho.imp_left fun hset => ?_
      exact (Function.update_of_ne hc ..).trans hset
    · exact Function.update_self ..
  · exact (hhalf.typeCallbackOf _ _).quiet hpolls

theorem N64Core.begin (h : N64Core s) (hnone : s.callback chan = none) (cb : N64Callback) : N64Half chan (s.setCallback chan (some cb)) := by
  have hne : ∀ c, c ≠ chan → Function.update s.callback chan (some cb) c = s.callback c := fun c hc => Function.update_of_ne hc ..
  constructor
  · intro c hc
    have hcd : c ≠ chan := by
      rintro rfl
      cases hnone.symm.trans (h.polled c hc)
    exact (hne c hcd).trans (h.polled c hc)
  · intro c hcd hc
    exact h.outstanding c ((hne c hcd) ▸ hc)

theorem N64Core.readAsync (h : N64Core s) {cb : N64Callback} {t : Nat → Nat} (hr : s.readAsync chan cb t = some r) : N64Does s r := by
  unfold N64State.readAsync at hr
  split at hr
  · cases hr
  case isFalse hnone =>
    obtain rfl := Option.some.inj hr
    have hdoes := (h.begin (not_not.1 hnone) cb).getTypeAsync t
    exact ⟨hdoes.core, hdoes.settled, hdoes.calls, hdoes.todo, hdoes.user⟩

end Reads

/-! ## The position interrupt -/

/-- `SI_GetType` at this time gives the type that is kept. -/
def N64State.current (s : N64State) (c : Fin 4) (now : Nat) : Prop :=
  s.siType c ≠ SI_ERROR_NO_RESPONSE ∧ (s.poll c = true ∨ u64 ((now : Int) - s.typeTime c) ≤ millisecsToTicks 50)

/-- A read that the position interrupt starts on the channel does not end in that call: the type is not known, or it is that of a device
that takes a read, and the channel takes a transfer. -/
def N64State.later (s : N64State) (c : Fin 4) (t : Nat → Nat) : Prop :=
  s.enabledBits &&& siChanBit c ≠ 0 → s.callback c = none → s.current c (t 4) →
    (s.responseBits &&& siChanBit c ≠ 0 → s.current c (t 0) ∧ s.siType c &&& SI_N64_MOUSE = 0) →
      s.siType c &&& SI_ERROR_BUSY ≠ 0 ∨ isValidType (s.siType c) 0x01 = true ∧ s.si.free c

instance (s : N64State) (c : Fin 4) (now : Nat) : Decidable (s.current c now) := inferInstanceAs (Decidable (_ ∧ (_ ∨ _)))

instance (s : N64State) (c : Fin 4) (t : Nat → Nat) : Decidable (s.later c t) := inferInstanceAs (Decidable (_ → _ → _ → (_ → _) → _))

/-- What a read on another channel leaves alone. -/
structure N64Agrees (c : Fin 4) (s s' : N64State) : Prop where
  siType : s'.siType c = s.siType c
  typeTime : s'.typeTime c = s.typeTime c
  poll : s'.poll c = s.poll c
  callback : s'.callback c = s.callback c
  enabledBits : s'.enabledBits = s.enabledBits
  responseBits : s'.responseBits = s.responseBits
  free : s'.si.free c ↔ s.si.free c

section Position
variable {s s' : N64State} {c chan : Fin 4}

theorem N64Agrees.refl (c : Fin 4) (s : N64State) : N64Agrees c s s := ⟨rfl, rfl, rfl, rfl, rfl, rfl, Iff.rfl⟩

theorem N64Agrees.trans {s'' : N64State} (h : N64Agrees c s s') (h' : N64Agrees c s' s'') : N64Agrees c s s'' :=
  ⟨h'.siType.trans h.siType, h'.typeTime.trans h.typeTime, h'.poll.trans h.poll, h'.callback.trans h.callback,
    h'.enabledBits.trans h.enabledBits, h'.responseBits.trans h.responseBits, h'.free.trans h.free⟩

theorem N64Agrees.later {t : Nat → Nat} (h : N64Agrees c s s') (hl : s.later c t) : s'.later c t := by
  unfold N64State.later N64State.current at hl ⊢
  rw [h.siType, h.typeTime, h.poll, h.callback, h.enabledBits, h.responseBits, h.free]
  exact hl

theorem N64State.transfer_agrees (hc : c ≠ chan) (s : N64State) (x : SiXfer) (usDelay : Nat) (t : Nat → Nat) :
    N64Agrees c s (s.transfer chan x usDelay t) :=
  ⟨rfl, rfl, rfl, rfl, rfl, rfl, SITransfer_free_ne hc x usDelay _ _⟩

theorem N64State.getType_agrees (hc : c ≠ chan) (s : N64State) (t : Nat → Nat) : N64Agrees c s (s.getType chan t).1 := by
  have htype : ∀ type, Function.update s.siType chan type c = s.siType c := fun _ => Function.update_of_ne hc ..
  have htime : ∀ now, Function.update s.typeTime chan now c = s.typeTime c := fun _ => Function.update_of_ne hc ..
  have hset : N64Agrees c s ((s.setType chan SI_ERROR_BUSY).setTypeTime chan (t 1)) := ⟨htype _, htime _, rfl, rfl, rfl, rfl, Iff.rfl⟩
  have hrequest : N64Agrees c s (s.requestType chan t) := hset.trans (N64State.transfer_agrees hc _ _ _ _)
  unfold N64State.getType
  dsimp only
  split
  · split
    · exact ⟨rfl, htime _, rfl, rfl, rfl, rfl, Iff.rfl⟩
    · exact hrequest
  split
  · exact .refl c s
  split
  · exact hrequest
  · exact hrequest

theorem N64State.getType_cases (s : N64State) (chan : Fin 4) (t : Nat → Nat) :
    (s.current chan (t 0) ∧ (s.getType chan t).2 = s.siType chan ∧ (s.getType chan t).1.siType = s.siType ∧
        (s.getType chan t).1.si = s.si ∧ (s.getType chan t).1.poll = s.poll ∧
        (s.poll chan = false → (s.getType chan t).1.typeTime = s.typeTime)) ∨
      ¬ s.current chan (t 0) ∧ (s.getType chan t).1.siType chan = SI_ERROR_BUSY := by
  have hbusy : (s.requestType chan t).siType chan = SI_ERROR_BUSY := Function.update_self ..
  unfold N64State.getType N64State.current
  dsimp only
  by_cases hpoll : s.poll chan = true
  · rw [if_pos hpoll]
    split
    case isTrue hne => exact .inl ⟨⟨hne, .inl hpoll⟩, rfl, rfl, rfl, rfl, fun h => by cases hpoll.symm.trans h⟩
    case isFalse hno => exact .inr ⟨fun h => hno h.1, hbusy⟩
  · rw [if_neg hpoll]
    split
    case isTrue hcur => exact .inl ⟨⟨hcur.2, .inr hcur.1⟩, rfl, rfl, rfl, rfl, fun _ => rfl⟩
    case isFalse hold =>
      have hnot : ¬ (s.siType chan ≠ SI_ERROR_NO_RESPONSE ∧ (s.poll chan = true ∨ u64 ((t 0 : Int) - s.typeTime chan) ≤ millisecsToTicks 50)) :=
        fun h => hold ⟨h.2.resolve_left hpoll, h.1⟩
      split
      · exact .inr ⟨hnot, hbusy⟩
      · exact .inr ⟨hnot, hbusy⟩

/-- What a read that does not end at once comes to. -/
structure N64Waits (s : N64State) (chan : Fin 4) (s' : N64State) : Prop where
  core : N64Core s'
  callback : s'.callback chan = some .sampling
  agrees : ∀ c, c ≠ chan → N64Agrees c s s'
  todo : s'.todo = s.todo
  user : s'.user = s.user

theorem N64Core.waits (h : N64Core s) (hnone : s.callback chan = none) {t : Nat → Nat}
    (hlater : s.current chan (t 0) → s.siType chan &&& SI_ERROR_BUSY ≠ 0 ∨ isValidType (s.siType chan) 0x01 = true ∧ s.si.free chan) :
    ∃ s', s.readAsync chan .sampling t = some (s', []) ∧ N64Waits s chan s' := by
  have hbegin := h.begin hnone .sampling
  have hset : ∀ c, c ≠ chan → N64Agrees c s (s.setCallback chan (some .sampling)) := fun c hc =>
    ⟨rfl, rfl, rfl, Function.update_of_ne hc .., rfl, rfl, Iff.rfl⟩
  have hcallback : (s.setCallback chan (some .sampling)).callback chan = some .sampling := Function.update_self ..
  have hdoes := hbegin.getTypeAsync t
  obtain ⟨hpolls, -⟩ := (s.setCallback chan (some .sampling)).getType_spec chan t
  have hagrees := fun c hc => (hset c hc).trans ((s.setCallback chan (some .sampling)).getType_agrees hc t)
  have hcases := (s.setCallback chan (some .sampling)).getType_cases chan t
  simp only [N64State.polls, Prod.mk.injEq] at hpolls
  unfold N64State.readAsync
  rw [if_neg (not_not.2 hnone)]
  unfold N64State.getTypeAsync at hdoes ⊢
  dsimp only at hdoes ⊢
  generalize (s.setCallback chan (some .sampling)).getType chan t = g at hdoes hpolls hagrees hcases ⊢
  by_cases hbusy : g.1.siType chan &&& SI_ERROR_BUSY ≠ 0
  · rw [if_pos hbusy] at hdoes ⊢
    refine ⟨_, rfl, hdoes.core, (congrFun hpolls.1 chan).trans hcallback, fun c hc => ?_, hdoes.todo, hdoes.user⟩
    exact (hagrees c hc).trans ⟨rfl, rfl, rfl, rfl, rfl, rfl, Iff.rfl⟩
  · rw [if_neg hbusy] at hdoes ⊢
    rcases hcases with ⟨hcurrent, htype, hkept, hsi, -, -⟩ | ⟨-, hset'⟩
    · rcases hlater hcurrent with hkeptBusy | ⟨hvalid, hfree⟩
      · rw [hkept] at hbusy
        exact absurd hkeptBusy hbusy
      · unfold N64State.typeCallbackOf at hdoes ⊢
        rw [if_neg (by rw [htype, show (s.setCallback chan (some .sampling)).siType chan = s.siType chan from rfl, hvalid]; decide)] at hdoes ⊢
        have hsent : (SITransfer g.1.si chan (n64Xfer chan) 65 (t 4) (t 5)).2 ≠ 0 := by
          rw [hsi]
          exact (SITransfer_free ..).2 hfree
        rw [if_neg hsent] at hdoes ⊢
        refine ⟨_, rfl, hdoes.core, (congrFun hpolls.1 chan).trans hcallback, fun c hc => ?_, hdoes.todo, hdoes.user⟩
        exact (hagrees c hc).trans (N64State.transfer_agrees hc _ _ _ _)
    · rw [hset'] at hbusy
      exact absurd (by decide) hbusy

/-- **The position interrupt** sets the bits of reads that are outstanding. -/
theorem N64Core.positionCallback (t : Fin 4 → Nat → Nat) {chans : List (Fin 4)} : ∀ {s : N64State}, N64Core s → chans.Nodup →
    (∀ c ∈ chans, s.later c (t c)) → ∃ s', s.positionCallback t chans = (s', []) ∧ N64Core s' ∧ s'.position = s'.wanted ∧
      s'.todo = s.todo ∧ s'.user = s.user := by
  induction chans with
  | nil => exact fun h _ _ => ⟨_, rfl, ⟨h.polled, h.outstanding⟩, rfl, rfl, rfl⟩
  | cons chan chans ih =>
    intro s h hnodup hlater
    obtain ⟨hnot, hnodup'⟩ := List.nodup_cons.1 hnodup
    have hne : ∀ c ∈ chans, c ≠ chan := by
      rintro c hc rfl
      exact hnot hc
    have hrest : ∀ s' : N64State, (∀ c, c ≠ chan → N64Agrees c s s') → ∀ c ∈ chans, s'.later c (t c) := fun s' hagrees c hc =>
      (hagrees c (hne c hc)).later (hlater c (List.mem_cons_of_mem _ hc))
    have hthis := hlater chan List.mem_cons_self
    unfold N64State.positionCallback
    dsimp only
    split
    · exact ih h hnodup' (hrest s fun c _ => .refl c s)
    case isFalse henabled =>
      -- the type is looked at only after a response
      obtain ⟨g, hg, hcore, hpolls, hagrees, hfirst⟩ : ∃ g : N64State × BitVec 32,
          (if s.responseBits &&& siChanBit chan ≠ 0 then s.getType chan (t chan) else (s, 0)) = g ∧ N64Core g.1 ∧ g.1.polls = s.polls ∧
            (∀ c, c ≠ chan → N64Agrees c s g.1) ∧
            (g.2 &&& SI_N64_MOUSE = 0 → g.1.current chan (t chan 4) → g.1.siType chan &&& SI_ERROR_BUSY = 0 →
              s.current chan (t chan 4) ∧ (s.responseBits &&& siChanBit chan ≠ 0 → s.current chan (t chan 0) ∧ s.siType chan &&& SI_N64_MOUSE = 0) ∧
                g.1.siType chan = s.siType chan ∧ (g.1.si.free chan ↔ s.si.free chan)) := by
        refine ⟨_, rfl, ?_⟩
        split
        case isTrue hresponse =>
          obtain ⟨hpolls, hout⟩ := s.getType_spec chan (t chan)
          refine ⟨h.quiet hpolls hout, hpolls, fun c hc => s.getType_agrees hc _, fun hmouse hcurrent hbusy => ?_⟩
          rcases s.getType_cases chan (t chan) with ⟨hcur, htype, hkept, hsi, hpoll, htime⟩ | ⟨-, hset⟩
          · rw [htype] at hmouse
            refine ⟨?_, fun _ => ⟨hcur, hmouse⟩, congrFun hkept chan, by rw [hsi]⟩
            unfold N64State.current at hcurrent ⊢
            rw [hkept, hpoll] at hcurrent
            refine ⟨hcurrent.1, ?_⟩
            cases hp : s.poll chan with
            | true => exact .inl rfl
            | false =>
              rw [htime hp, hp] at hcurrent
              exact hcurrent.2
          · rw [hset] at hbusy
            exact absurd hbusy (by decide)
        case isFalse hresponse =>
          exact ⟨h, rfl, fun c _ => .refl c s, fun _ hcurrent _ => ⟨hcurrent, fun hr => absurd hr hresponse, rfl, Iff.rfl⟩⟩
      rw [hg]
      have hsame := hpolls
      simp only [N64State.polls, Prod.mk.injEq] at hsame
      obtain ⟨hcallback, -, -, -, -, -, -, htodo, huser⟩ := hsame
      split
      · obtain ⟨s', heq, hcore', hposition, htodo', huser'⟩ := ih hcore hnodup' (hrest _ hagrees)
        exact ⟨s', heq, hcore', hposition, htodo'.trans htodo, huser'.trans huser⟩
      case isFalse hmouse =>
        by_cases hnone : g.1.callback chan = none
        · have hthis' : g.1.current chan (t chan 4) → g.1.siType chan &&& SI_ERROR_BUSY ≠ 0 ∨ isValidType (g.1.siType chan) 0x01 = true ∧ g.1.si.free chan := by
            intro hcurrent
            refine or_iff_not_imp_left.2 fun hbusy => ?_
            obtain ⟨hcur, hresponse, htype, hfree⟩ := hfirst (not_not.1 hmouse) hcurrent (not_not.1 hbusy)
            rw [htype, hfree]
            rw [htype] at hbusy
            exact (hthis henabled ((congrFun hcallback chan).symm.trans hnone) hcur hresponse).resolve_left hbusy
          obtain ⟨s', heq, hwaits⟩ := hcore.waits (t := fun k => t chan (k + 4)) hnone hthis'
          rw [heq]
          dsimp only
          -- the bit is set of a read that waits
          have hbit : N64Core { s' with pollingBits := s'.pollingBits ||| siChanBit chan } := by
            refine ⟨fun c hc => ?_, hwaits.core.outstanding⟩
            by_cases hcd : c = chan
            · rw [hcd]
              exact hwaits.callback
            · rw [siChanBit_set_ne hcd] at hc
              exact hwaits.core.polled c hc
          obtain ⟨s'', heq', hcore', hposition, htodo', huser'⟩ := ih hbit hnodup' (hrest _ fun c hc =>
            ((hagrees c hc).trans (hwaits.agrees c hc)).trans ⟨rfl, rfl, rfl, rfl, rfl, rfl, Iff.rfl⟩)
          exact ⟨s'', heq', hcore', hposition, htodo'.trans (hwaits.todo.trans htodo), huser'.trans (hwaits.user.trans huser)⟩
        · have hbusy : g.1.readAsync chan .sampling (fun k => t chan (k + 4)) = none := by
            unfold N64State.readAsync
            exact if_pos hnone
          rw [hbusy]
          obtain ⟨s', heq, hcore', hposition, htodo', huser'⟩ := ih hcore hnodup' (hrest _ hagrees)
          exact ⟨s', heq, hcore', hposition, htodo'.trans htodo, huser'.trans huser⟩

end Position

/-! ## Completions -/

section Completions
variable {s : N64State} {chan : Fin 4}

theorem N64Core.calltypeandstatuscallback (h : N64Core s) (chan : Fin 4) (t : Nat → Nat) : N64Does s (s.calltypeandstatuscallback chan t) := by
  unfold N64State.calltypeandstatuscallback
  split
  · have hhalf : N64Half chan (s.setTypeCallback chan false) := by
      refine (h.half chan).quiet rfl fun c hc ho => ho.imp_left fun hset => ?_
      exact (Function.update_of_ne hc ..).trans hset
    exact (hhalf.typeCallbackOf _ t).quiet rfl
  · exact .of_quiet h rfl

theorem N64Core.gettypecallback (h : N64Core s) (chan : Fin 4) (type : BitVec 32) (t : Nat → Nat) :
    N64Does s (s.gettypecallback chan type t) := by
  unfold N64State.gettypecallback
  dsimp only
  have hstored : ∀ (siType : Fin 4 → BitVec 32) (typeTime : Fin 4 → Nat) (padFixBits : Fin 4 → Bool) (wirelessID : Fin 4 → BitVec 16),
      N64Core { s with siType := siType, typeTime := typeTime, padFixBits := padFixBits, wirelessID := wirelessID } :=
    fun _ _ _ _ => h.quiet rfl fun _ ho => ho
  have hfix : ∀ (s' : N64State) (x : SiXfer) (next : Nat → Nat), N64Core s' → s'.polls = s.polls →
      N64Does s ((s'.setType chan SI_ERROR_BUSY).transfer chan x 0 next, []) := fun s' x next hs' hpolls =>
    .of_quiet (hs'.quiet rfl fun _ ho => N64State.transfer_outstanding (s := s'.setType chan SI_ERROR_BUSY) ho x 0 next) hpolls
  split
  · exact ((hstored _ _ _ _).calltypeandstatuscallback chan _).quiet rfl
  split
  · exact hfix _ _ _ (hstored _ _ _ _) rfl
  split
  · split
    · exact ((hstored _ _ _ _).calltypeandstatuscallback chan _).quiet rfl
    split
    · exact hfix _ _ _ (hstored _ _ _ _) rfl
    · exact hfix _ _ _ (hstored _ _ _ _) rfl
  split
  · exact hfix _ _ _ (hstored _ _ _ _) rfl
  · exact ((hstored _ _ _ _).calltypeandstatuscallback chan _).quiet rfl

/-- What the end of a transfer stores. -/
def N64Stored (s s' : N64State) : Prop := ∃ siType typeTime, s' = { s with siType := siType, typeTime := typeTime }

theorem N64State.completetransfer_spec (s : N64State) (chan : Fin 4) (comerr : Bool) (sisr : BitVec 4) (val : BitVec 32) (now : Nat) :
    N64Stored s (s.completetransfer chan comerr sisr val now).1 := by
  unfold N64State.completetransfer
  dsimp only
  generalize hs' : (if s.si.sicntrl.inp = siTypePlace chan then
    s.setType chan ((val &&& 0xffffff00) ||| (s.siType chan &&& 0xff)) else s) = s'
  obtain ⟨siType, typeTime, rfl⟩ : N64Stored s s' := by
    subst hs'
    split
    · exact ⟨_, _, rfl⟩
    · exact ⟨_, _, rfl⟩
  split
  · dsimp only
    split
    · exact ⟨_, _, rfl⟩
    · exact ⟨_, _, rfl⟩
  · exact ⟨_, _, rfl⟩

end Completions

/-! ## Runs -/

/-- Nothing of the position interrupt is left to be done. -/
def N64Call.plain : N64Call → Prop
  | .polled _ | .position _ => False
  | _ => True

structure N64Inv (s : N64State) : Prop where
  core : N64Core s
  todo : ∀ call ∈ s.todo, call.plain
  position : .refresh ∈ s.todo ∨ s.position = s.wanted

section Invariant
variable {s s' : N64State} {r : N64Run}

theorem N64Inv.quiet (h : N64Inv s) (hpolls : s'.polls = s.polls) (hout : ∀ c, s.outstanding c → s'.outstanding c) : N64Inv s' := by
  obtain ⟨hwanted, hposition⟩ := N64State.wanted_congr hpolls
  have hcore := h.core.quiet hpolls hout
  simp only [N64State.polls, Prod.mk.injEq] at hpolls
  obtain ⟨-, -, -, -, -, -, -, htodo, -⟩ := hpolls
  constructor
  · exact hcore
  · rw [htodo]
    exact h.todo
  · rw [htodo, hposition, hwanted]
    exact h.position

theorem N64Inv.push {calls : List N64Call} (hcore : N64Core s) (htodo : ∀ call ∈ s.todo, call.plain) (hcalls : ∀ call ∈ calls, call.plain)
    (hposition : (.refresh ∈ calls ∨ .refresh ∈ s.todo) ∨ s.position = s.wanted) : N64Inv (s.push calls) := by
  cases calls with
  | nil => exact ⟨hcore, htodo, hposition.imp_left fun hm => hm.resolve_left fun he => by cases he⟩
  | cons call calls =>
    have hall : (s.push (call :: calls)).todo = (call :: calls) ++ if s.user then .back :: s.todo else s.todo := rfl
    refine ⟨⟨hcore.polled, hcore.outstanding⟩, ?_, ?_⟩
    · rw [hall]
      intro x hx
      rcases List.mem_append.1 hx with hx | hx
      · exact hcalls x hx
      split at hx
      · rcases List.mem_cons.1 hx with rfl | hx
        · trivial
        · exact htodo x hx
      · exact htodo x hx
    · rw [hall]
      refine hposition.imp_left fun hm => List.mem_append.2 (hm.imp_right fun hm => ?_)
      split
      · exact List.mem_cons_of_mem _ hm
      · exact hm

theorem N64Inv.does (h : N64Inv s) (hr : N64Does s r) : N64Inv (N64State.pushRun r) := by
  refine .push hr.core ?_ ?_ ?_
  · rw [hr.todo]
    exact h.todo
  · intro call hm
    rcases hr.calls call hm with rfl | rfl
    · trivial
    · trivial
  · rw [hr.todo]
    rcases h.position with hm | hp
    · exact .inl (.inr hm)
    · exact (hr.settled hp).imp_left .inl

theorem N64Inv.refreshed (h : N64Inv s) (enabledBits : BitVec 32) : N64Inv { s with enabledBits := enabledBits }.refreshPositionInterrupt :=
  ⟨⟨h.core.polled, h.core.outstanding⟩, h.todo, .inr rfl⟩

theorem N64Inv.interrupt (h : N64Inv s) (comerr : Bool) (sisr : BitVec 4) (val : BitVec 32) (done : Nat) (now : Fin 4 → Nat) (t : Nat → Nat) :
    N64Inv (s.interrupt comerr sisr val done now t) := by
  unfold N64State.interrupt
  dsimp only
  generalize hchn : Fin.ofNat 4 s.si.sicntrl.chan.toNat = chn
  obtain ⟨siType, typeTime, hcomplete⟩ := s.completetransfer_spec chn comerr sisr val (t 0)
  rw [hcomplete]
  generalize hs' : ({ s with siType := siType, typeTime := typeTime, si := siInterrupthandler s.si done now } : N64State) = s'
  have hpolls : s'.polls = s.polls := by
    subst hs'
    rfl
  -- the reads of the other channels go on
  have hothers : ∀ c, (s.si.sicntrl.chan = c.val → s.si.sicntrl.callback ≠ n64HandlerPlace) → s.outstanding c → s'.outstanding c := by
    subst hs'
    exact fun c hne ho => ho.imp_right fun hcar => hcar.interrupthandler hne done now
  obtain ⟨r, hr, hdoes⟩ : ∃ r : N64Run, (if s.si.sicntrl.callback = siGettypecallbackPlace then
      s'.gettypecallback chn (s.completetransfer chn comerr sisr val (t 0)).2 fun k => t (k + 1)
      else if s.si.sicntrl.callback = n64HandlerPlace then s'.n64Handler chn (s.completetransfer chn comerr sisr val (t 0)).2
      else (s', [])) = r ∧ N64Does s' r := by
    refine ⟨_, rfl, ?_⟩
    split
    case isTrue hcb =>
      refine N64Core.gettypecallback (h.core.quiet hpolls fun c => hothers c fun _ => ?_) _ _ _
      rw [hcb]
      decide
    split
    case isTrue hcb =>
      refine N64Core.n64Handler ((h.core.half chn).quiet hpolls fun c hc => hothers c fun hbus _ => hc ?_) _
      rw [← hchn, hbus]
      exact Fin.ext (by simp)
    case isFalse hcb => exact .of_quiet (h.core.quiet hpolls fun c => hothers c fun _ => hcb) rfl
  rw [hr]
  have hsame := hpolls
  simp only [N64State.polls, Prod.mk.injEq] at hsame
  obtain ⟨-, -, -, -, -, -, -, htodo, -⟩ := hsame
  obtain ⟨hwanted, hposition⟩ := N64State.wanted_congr hpolls
  refine .push hdoes.core ?_ ?_ ?_
  · rw [hdoes.todo, htodo]
    exact h.todo
  · intro call hm
    rcases List.mem_append.1 hm with hm | hm
    · rcases hdoes.calls call hm with rfl | rfl
      · trivial
      · trivial
    · obtain rfl := List.mem_singleton.1 hm
      trivial
  · rw [hdoes.todo, htodo]
    rcases h.position with hm | hp
    · exact .inl (.inr hm)
    · exact (hdoes.settled (by rw [hposition, hwanted, hp])).imp_left fun hm => .inl (List.mem_append_left _ hm)

theorem N64Inv.run (h : N64Inv s) (t : Fin 4 → Nat → Nat) : N64Inv (s.run t) := by
  unfold N64State.run
  split
  case h_1 call todo htodo =>
    have hrest : ∀ x ∈ todo, x.plain := fun x hx => h.todo x (htodo ▸ List.mem_cons_of_mem _ hx)
    have hplain : call.plain := h.todo call (htodo ▸ List.mem_cons_self)
    have hposition : call ≠ .refresh → .refresh ∈ todo ∨ s.position = s.wanted := by
      refine fun hne => h.position.imp_left fun hm => ?_
      rw [htodo] at hm
      exact (List.mem_cons.1 hm).resolve_left fun e => hne e.symm
    have hgone : call ≠ .refresh → N64Inv { s with todo := todo, user := false } := fun hne =>
      ⟨⟨h.core.polled, h.core.outstanding⟩, hrest, hposition hne⟩
    unfold N64State.runCall
    cases call with
    | user | back => exact ⟨⟨h.core.polled, h.core.outstanding⟩, hrest, hposition (by decide)⟩
    | refresh => exact ⟨⟨h.core.polled, h.core.outstanding⟩, hrest, .inr rfl⟩
    | polled chan => exact hplain.elim
    | position chans => exact hplain.elim
    | resend chn =>
      have hinv := hgone fun e => by cases e
      dsimp only
      split
      · exact hinv.quiet rfl fun c ho => N64State.transfer_outstanding ho _ _ _
      · exact hinv
  case h_2 hnil => exact ⟨⟨h.core.polled, h.core.outstanding⟩, h.todo, h.position⟩

end Invariant

/-- No read that the position interrupt starts in this step ends in the call that starts it. -/
def n64Later (s : N64State) : N64Event → Prop
  | .position t => ∀ c, s.later c (t c)
  | _ => True

instance (s : N64State) : (e : N64Event) → Decidable (n64Later s e)
  | .position _ => inferInstanceAs (Decidable (∀ _, _))
  | .enablePolling _ | .disablePolling _ | .setSamplingCallback _ | .readAsync _ _ _ | .getResponse _ _ | .getType _ _ | .polling _
  | .interrupt _ _ _ _ _ _ | .alarm _ _ | .run _ => inferInstanceAs (Decidable True)

section Next
variable {s : N64State}

theorem N64Inv.next (h : N64Inv s) {e : N64Event} (hlater : n64Later s e) : N64Inv (n64Next s e) := by
  cases e with
  | enablePolling mask => exact h.refreshed _
  | disablePolling mask => exact h.refreshed _
  | setSamplingCallback set => exact ⟨⟨h.core.polled, h.core.outstanding⟩, h.todo, h.position⟩
  | readAsync chan set t =>
    unfold n64Next
    dsimp only
    split
    case h_1 hr => exact h.does (h.core.readAsync hr)
    case h_2 => exact h
  | getResponse chan t =>
    show N64Inv (s.getResponse chan t)
    unfold N64State.getResponse
    dsimp only
    split
    · exact ⟨⟨h.core.polled, h.core.outstanding⟩, h.todo, h.position⟩
    split
    · exact h
    split
    · split
      case h_1 hr => exact h.does (h.core.readAsync hr)
      case h_2 => exact h
    · exact h
  | getType chan t =>
    obtain ⟨hpolls, hout⟩ := s.getType_spec chan t
    exact h.quiet hpolls hout
  | polling poll => exact h.quiet rfl fun _ ho => ho
  | position t =>
    obtain ⟨s', heq, hcore, hposition, htodo, -⟩ := h.core.positionCallback t (List.nodup_finRange 4) fun c _ => hlater c
    show N64Inv (N64State.pushRun (s.positionCallback t (List.finRange 4)))
    rw [heq]
    exact ⟨hcore, htodo.symm ▸ h.todo, .inr hposition⟩
  | interrupt comerr sisr val done now t => exact h.interrupt comerr sisr val done now t
  | alarm chan now => exact h.quiet rfl fun _ ho => ho.imp_right fun hcar => hcar.alarmhandler
  | run t => exact h.run t

theorem n64Inv_start (tvMode : Nat) : N64Inv (n64Start tvMode) := by
  refine ⟨⟨fun c hc => ?_, fun c hc => absurd rfl hc⟩, fun _ hm => (by cases hm), .inr rfl⟩
  exact absurd (BitVec.zero_and : (0 : BitVec 32) &&& siChanBit c = 0) hc

theorem n64Inv_init (tvMode : Nat) (t : Fin 4 → Nat → Nat) : N64Inv (n64Init tvMode t) := by
  unfold n64Init
  generalize List.finRange 4 = chans
  generalize hs : n64Start tvMode = s
  have h : N64Inv s := hs ▸ n64Inv_start tvMode
  clear hs
  induction chans generalizing s with
  | nil => exact h
  | cons chan chans ih =>
    obtain ⟨hpolls, hout⟩ := s.getType_spec chan (t chan)
    exact ih _ (h.quiet hpolls hout)

end Next

/-- A channel that is polled has a read of the position interrupt outstanding, whose end clears the bit; between events the position
interrupt is enabled if channels are and no bit is set. -/
structure N64Polled (s : N64State) : Prop where
  reads : ∀ c, s.pollingBits &&& siChanBit c ≠ 0 → s.callback c = some .sampling ∧ s.outstanding c
  ends : ∀ c result, s.pollingBits &&& siChanBit c ≠ 0 → (s.callCallback c result).1.pollingBits &&& siChanBit c = 0
  position : s.idle = true → s.position = s.wanted

theorem N64Inv.n64Polled {s : N64State} (h : N64Inv s) : N64Polled s where
  reads c hc := by
    have hcb := h.core.polled c hc
    exact ⟨hcb, h.core.outstanding c (by rw [hcb]; exact Option.some_ne_none _)⟩
  ends c result _ := by
    refine not_not.1 fun hbit => ?_
    have hdoes := (h.core.half c).callCallback result
    cases (s.callCallback_callback c result).symm.trans (hdoes.core.polled c hbit)
  position hi := by
    refine h.position.resolve_left fun hm => ?_
    unfold N64State.idle at hi
    rw [Bool.and_eq_true, List.isEmpty_iff] at hi
    rw [hi.1] at hm
    cases hm

/-- **Each bit of the channels that are polled** belongs to a read that is outstanding. -/
theorem n64_polling_outstanding (tvMode : Nat) (t : Fin 4 → Nat → Nat) {es : List N64Event}
    (hl : (n64System.restrict n64Later).Legal (n64Init tvMode t) es) : N64Polled (n64System.run (n64Init tvMode t) es) := by
  have hstep : ∀ (s : N64State) e, N64Inv s → (n64System.restrict n64Later).enabled s e → N64Inv (n64Next s e) :=
    fun s e hs he => hs.next he.2
  exact (hl.invariant hstep (n64Inv_init tvMode t)).n64Polled

def n64Now : Nat → Nat := fun _ => millisecsToTicks 1

def n64Nows : Fin 4 → Nat := fun _ => millisecsToTicks 1

/-- A controller is asked for its type, and read. -/
theorem n64_polling_outstanding_controller :
    N64Polled (n64System.run (n64Init 0 fun _ => n64Now) [.enablePolling (siChanBit 0), .position fun _ => n64Now,
      .interrupt false 0 0x05000000 (millisecsToTicks 1) n64Nows n64Now, .run fun _ => n64Now,
      .interrupt false 0 0 (millisecsToTicks 1) n64Nows n64Now]) :=
  n64_polling_outstanding 0 _ (by decide)

/-- A device that takes no read has polling enabled again while its type is known: the read ends in the call that starts it, and the bit
that is set after it stays. -/
theorem n64_polling_no_read :
    ¬ ∀ (tvMode : Nat) (t : Fin 4 → Nat → Nat) (es : List N64Event), n64System.Legal (n64Init tvMode t) es →
      N64Polled (n64System.run (n64Init tvMode t) es) := by
  intro h
  have hread := (h 0 (fun _ => n64Now) [.enablePolling (siChanBit 0), .position fun _ => n64Now,
    .interrupt false 0 0x00040000 (millisecsToTicks 1) n64Nows n64Now, .run fun _ => n64Now, .enablePolling (siChanBit 0),
    .position fun _ => n64Now] (by decide)).reads 0 (by decide)
  exact absurd hread.1 (by decide)

end Libogc
