import Libogc.Si.Si
/-!
# SiRuns — every accepted packet is started once, and none is stranded

First what the functions do (a busy bus refuses, an idle one takes the first packet that is due), then the books of the packets, then
the runs.
-/
namespace Libogc

open Runs

/-! ## What the functions do -/

/-- A transfer is started. -/
def SiState.start (s : SiState) (chan : Int) (x : SiXfer) (id : Nat) : SiState :=
  { s with
    sicntrl := ⟨chan, x.inBytes, x.inp, x.callback⟩
    comcsr := ⟨x.callback ≠ 0, siLength x.outBytes, siLength x.inBytes, (chan % 4).toNat, true⟩
    started := s.started ++ [(id, chan, x)] }

/-- A packet leaves its slot for the bus. -/
def SiState.launch (s : SiState) (c : Fin 4) : SiState :=
  ((s.start (s.sipacket c).chan (s.sipacket c).xfer (s.sipacket c).id).setAlarm c none).clear c

/-- The channels that `__si_transfernext` looks at, in its order. -/
def siOrder : Nat → Fin 4 → List (Fin 4)
  | 0, _ => []
  | n + 1, chan => (chan + 1) :: siOrder n (chan + 1)

theorem mem_siOrder : ∀ chan c : Fin 4, c ∈ siOrder 4 chan := by decide

/-- A packet waits on the channel, and its deadline is reached. -/
def SiState.ready (s : SiState) (now : Fin 4 → Nat) (c : Fin 4) : Prop :=
  s.pending c ∧ siDue (s.sipacket c).fire (now c)

instance (s : SiState) (now : Fin 4 → Nat) : DecidablePred (s.ready now) := fun _ => inferInstanceAs (Decidable (_ ∧ _))

theorem siDue_iff {fire now : Nat} (hf : fire < 2 ^ 63) (hn : now < 2 ^ 63) : siDue fire now ↔ fire ≤ now := by
  unfold siDue s64 u64
  by_cases h : fire ≤ now
  · rw [show ((now : Int) - fire) % 2 ^ 64 = now - fire by omega, if_pos (by omega)]
    omega
  · rw [show ((now : Int) - fire) % 2 ^ 64 = 2 ^ 64 + now - fire by omega, if_neg (by omega)]
    omega

section Functions
variable {s : SiState} {c d : Fin 4} {now : Fin 4 → Nat}

theorem siTransfer_busy (h : s.busy) (chan : Int) (x : SiXfer) (id : Nat) : siTransfer s chan x id = (s, false) := if_pos h

theorem siTransfer_idle (h : ¬ s.busy) (chan : Int) (x : SiXfer) (id : Nat) : siTransfer s chan x id = (s.start chan x id, true) := if_neg h

theorem siTransfernext_busy (h : s.busy) (now : Fin 4 → Nat) (n : Nat) (chan : Fin 4) : siTransfernext s now n chan = s := by
  induction n generalizing chan with
  | zero => rfl
  | succ n ih =>
    rw [siTransfernext]
    split
    · rw [siTransferPacket, siTransfer_busy h, if_neg Bool.false_ne_true]
    · exact ih _

/-- On an idle bus the first packet that is due is started, and only that one. -/
theorem siTransfernext_idle (h : ¬ s.busy) (hslot : ∀ c, s.pending c → (s.sipacket c).chan = c.val) (now : Fin 4 → Nat) (n : Nat)
    (chan : Fin 4) :
    siTransfernext s now n chan = match (siOrder n chan).find? (fun c => s.ready now c) with
      | none => s
      | some c => s.launch c := by
  induction n generalizing chan with
  | zero => rfl
  | succ n ih =>
    rw [siTransfernext, siOrder, List.find?_cons]
    by_cases hr : s.ready now (chan + 1)
    · have hbusy : (s.launch (chan + 1)).busy := by
        show (s.sipacket (chan + 1)).chan ≠ -1
        rw [hslot _ hr.1]
        show ((chan + 1).val : Int) ≠ -1
        omega
      have hif : (s.sipacket (chan + 1)).chan ≠ -1 ∧ siDue (s.sipacket (chan + 1)).fire (now (chan + 1)) := hr
      rw [if_pos hif, decide_eq_true hr]
      rw [siTransferPacket, siTransfer_idle h, if_pos rfl]
      exact siTransfernext_busy hbusy now n _
    · have hif : ¬ ((s.sipacket (chan + 1)).chan ≠ -1 ∧ siDue (s.sipacket (chan + 1)).fire (now (chan + 1))) := hr
      rw [if_neg hif, decide_eq_false hr, ih]

theorem siAlarmhandler_busy (h : s.busy) : siAlarmhandler s c = s := by
  unfold siAlarmhandler
  split
  · rw [siTransferPacket, siTransfer_busy h, if_neg Bool.false_ne_true]
  · rfl

theorem siAlarmhandler_free (h : ¬ s.pending c) : siAlarmhandler s c = s := if_neg h

theorem siAlarmhandler_idle (h : ¬ s.busy) (hp : s.pending c) (ha : s.siAlarm c = none) : siAlarmhandler s c = s.launch c := by
  have hset : ∀ t : SiState, t.siAlarm c = none → t.setAlarm c none = t := by
    intro t ht
    unfold SiState.setAlarm
    rw [← ht, Function.update_eq_self]
  unfold siAlarmhandler SiState.launch
  rw [if_pos (show (s.sipacket c).chan ≠ -1 from hp), siTransferPacket, siTransfer_idle h, if_pos rfl, hset (s.start _ _ _) ha]

end Functions

/-! ## The books -/

/-- The bus and the slots.  A transfer that is running has its interrupt unmasked, unless it was given no callback. -/
structure SiInv (s : SiState) : Prop where
  slot : ∀ c, s.pending c → (s.sipacket c).chan = c.val
  free : ∀ c, s.pending c → s.sicntrl.chan ≠ c.val
  chans : s.busy → ∃ c : Fin 4, s.sicntrl.chan = c.val
  bus : s.started.length = s.completed + if s.busy then 1 else 0
  tstart : s.comcsr.tstart = true ↔ s.busy
  msk : s.busy → s.comcsr.tcintmsk = true ∨ s.sicntrl.callback = 0
  times : s.clock < 2 ^ 62 ∧ ∀ c, s.xferTime c < 2 ^ 62
  fires : ∀ c, (s.sipacket c).fire < 2 ^ 63

/-- Every accepted call has its transfer on the list of those started, or its packet in a slot. -/
structure SiOnce (s : SiState) : Prop where
  nodup : (s.started.map Prod.fst).Nodup
  started : ∀ e ∈ s.started, s.accepted[e.1]? = some e.2
  waiting : ∀ c, s.pending c → s.accepted[(s.sipacket c).id]? = some ((c.val : Int), (s.sipacket c).xfer) ∧
    (s.sipacket c).id ∉ s.started.map Prod.fst
  apart : ∀ c d, s.pending c → s.pending d → (s.sipacket c).id = (s.sipacket d).id → c = d
  all : ∀ id < s.accepted.length, id ∈ s.started.map Prod.fst ∨ ∃ c, s.pending c ∧ (s.sipacket c).id = id

/-- No packet is stranded. -/
def SiState.Awake (s : SiState) : Prop := ∀ c, s.pending c → s.busy ∨ s.siAlarm c ≠ none

section Books
variable {s : SiState} {c d : Fin 4}

theorem setPacket_self (p : SiPacket) : (s.setPacket c p).sipacket c = p := Function.update_self ..

theorem setPacket_pending_self {p : SiPacket} : (s.setPacket c p).pending c ↔ p.chan ≠ -1 := by
  unfold SiState.pending
  rw [setPacket_self]

theorem setPacket_of_ne (h : d ≠ c) (p : SiPacket) : (s.setPacket c p).sipacket d = s.sipacket d := Function.update_of_ne h ..

theorem setPacket_pending_ne (h : d ≠ c) (p : SiPacket) : (s.setPacket c p).pending d ↔ s.pending d := by
  unfold SiState.pending
  rw [setPacket_of_ne h]

theorem launch_pending : (s.launch c).pending d ↔ d ≠ c ∧ s.pending d := by
  by_cases h : d = c
  · subst h
    exact ⟨fun hp => absurd rfl (setPacket_pending_self.mp hp), fun hp => absurd rfl hp.1⟩
  · exact (setPacket_pending_ne h _).trans ⟨fun hp => ⟨h, hp⟩, fun hp => hp.2⟩

theorem launch_sipacket (h : d ≠ c) : (s.launch c).sipacket d = s.sipacket d := setPacket_of_ne h _

theorem launch_fire : ((s.launch c).sipacket d).fire = (s.sipacket d).fire := by
  by_cases h : d = c
  · subst h
    unfold SiState.launch SiState.clear
    rw [setPacket_self]
    rfl
  · rw [launch_sipacket h]

theorem SiInv.launch_chan (h : SiInv s) (hp : s.pending c) : (s.launch c).sicntrl.chan = c.val := h.slot c hp

theorem SiInv.launch_busy (h : SiInv s) (hp : s.pending c) : (s.launch c).busy := by
  unfold SiState.busy
  rw [h.launch_chan hp]
  omega

theorem SiInv.launch (h : SiInv s) (hb : ¬ s.busy) (hp : s.pending c) : SiInv (s.launch c) := by
  have hchan := h.launch_chan hp
  have hbusy := h.launch_busy hp
  constructor
  · intro d hd
    obtain ⟨hne, hd⟩ := launch_pending.mp hd
    rw [launch_sipacket hne]
    exact h.slot d hd
  · intro d hd heq
    obtain ⟨hne, hd⟩ := launch_pending.mp hd
    rw [hchan] at heq
    exact hne (Fin.ext (by omega))
  · exact fun _ => ⟨c, hchan⟩
  · have hbus := h.bus
    rw [if_neg hb] at hbus
    rw [if_pos hbusy]
    show (s.started ++ [_]).length = s.completed + 1
    rw [List.length_append, hbus]
    rfl
  · exact ⟨fun _ => hbusy, fun _ => rfl⟩
  · intro _
    show decide _ = true ∨ (s.sipacket c).xfer.callback = 0
    by_cases hcb : (s.sipacket c).xfer.callback = 0
    · exact .inr hcb
    · exact .inl (decide_eq_true hcb)
  · exact h.times
  · intro d
    rw [launch_fire]
    exact h.fires d

theorem SiOnce.launch (ho : SiOnce s) (h : SiInv s) (hp : s.pending c) : SiOnce (s.launch c) := by
  obtain ⟨hacc, hnot⟩ := ho.waiting c hp
  have hstarted : (s.launch c).started.map Prod.fst = s.started.map Prod.fst ++ [(s.sipacket c).id] := by
    show (s.started ++ [_]).map Prod.fst = _
    rw [List.map_append]
    rfl
  constructor
  · rw [hstarted]
    exact List.Nodup.append ho.nodup (List.nodup_singleton _) (by simpa using hnot)
  · intro e he
    have he : e ∈ s.started ++ [((s.sipacket c).id, (s.sipacket c).chan, (s.sipacket c).xfer)] := he
    rcases List.mem_append.mp he with he | he
    · exact ho.started e he
    · rw [List.mem_singleton.mp he]
      show s.accepted[(s.sipacket c).id]? = some ((s.sipacket c).chan, (s.sipacket c).xfer)
      rw [h.slot c hp, hacc]
  · intro d hd
    obtain ⟨hne, hd⟩ := launch_pending.mp hd
    obtain ⟨hacc, hnot⟩ := ho.waiting d hd
    rw [launch_sipacket hne, hstarted]
    refine ⟨hacc, fun hm => ?_⟩
    rcases List.mem_append.mp hm with hm | hm
    · exact hnot hm
    · exact hne (ho.apart d c hd hp (List.mem_singleton.mp hm))
  · intro d d' hd hd' heq
    obtain ⟨hne, hd⟩ := launch_pending.mp hd
    obtain ⟨hne', hd'⟩ := launch_pending.mp hd'
    rw [launch_sipacket hne, launch_sipacket hne'] at heq
    exact ho.apart d d' hd hd' heq
  · intro id hid
    rw [hstarted]
    rcases ho.all id hid with hm | ⟨d, hd, hdid⟩
    · exact .inl (List.mem_append_left _ hm)
    · by_cases hne : d = c
      · subst hne
        exact .inl (List.mem_append_right _ (by simp [hdid]))
      · exact .inr ⟨d, launch_pending.mpr ⟨hne, hd⟩, by rw [launch_sipacket hne]; exact hdid⟩

/-- A call that finds the bus idle and its deadline reached. -/
def SiState.direct (s : SiState) (c : Fin 4) (x : SiXfer) : SiState :=
  { s.start c.val x s.accepted.length with accepted := s.accepted ++ [((c.val : Int), x)] }

/-- A call that leaves its packet in the slot, with an alarm or without one. -/
def SiState.leave (s : SiState) (c : Fin 4) (x : SiXfer) (fire : Nat) (alarm : Option Nat) : SiState :=
  ({ s with accepted := s.accepted ++ [((c.val : Int), x)], siAlarm := Function.update s.siAlarm c alarm }).setPacket c
    ⟨c.val, x, fire, s.accepted.length⟩

theorem leave_pending {x : SiXfer} {fire : Nat} {alarm : Option Nat} : (s.leave c x fire alarm).pending d ↔ d = c ∨ s.pending d := by
  by_cases h : d = c
  · subst h
    refine ⟨fun _ => .inl rfl, fun _ => setPacket_pending_self.mpr ?_⟩
    show (d.val : Int) ≠ -1
    omega
  · exact (setPacket_pending_ne h _).trans ⟨.inr, fun hor => hor.resolve_left h⟩

theorem leave_self (x : SiXfer) (fire : Nat) (alarm : Option Nat) :
    (s.leave c x fire alarm).sipacket c = ⟨c.val, x, fire, s.accepted.length⟩ := setPacket_self _

theorem leave_sipacket (h : d ≠ c) (x : SiXfer) (fire : Nat) (alarm : Option Nat) :
    (s.leave c x fire alarm).sipacket d = s.sipacket d := setPacket_of_ne h _

theorem SiInv.direct (h : SiInv s) (hb : ¬ s.busy) (hp : ¬ s.pending c) (x : SiXfer) : SiInv (s.direct c x) := by
  have hbusy : (s.direct c x).busy := by
    show (c.val : Int) ≠ -1
    omega
  constructor
  · exact h.slot
  · intro d hd heq
    have heq : (c.val : Int) = d.val := heq
    exact hp ((Fin.ext (by omega) : d = c) ▸ hd)
  · exact fun _ => ⟨c, rfl⟩
  · have hbus := h.bus
    rw [if_neg hb] at hbus
    rw [if_pos hbusy]
    show (s.started ++ [_]).length = s.completed + 1
    rw [List.length_append, hbus]
    rfl
  · exact ⟨fun _ => hbusy, fun _ => rfl⟩
  · intro _
    show decide _ = true ∨ x.callback = 0
    by_cases hcb : x.callback = 0
    · exact .inr hcb
    · exact .inl (decide_eq_true hcb)
  · exact h.times
  · exact h.fires

theorem SiInv.leave (h : SiInv s) (hc : s.sicntrl.chan ≠ c.val) (x : SiXfer) {fire : Nat} (hf : fire < 2 ^ 63)
    (alarm : Option Nat) : SiInv (s.leave c x fire alarm) := by
  constructor
  · intro d hd
    by_cases hne : d = c
    · subst hne
      rw [leave_self]
    · rw [leave_sipacket hne]
      exact h.slot d ((leave_pending.mp hd).resolve_left hne)
  · intro d hd
    by_cases hne : d = c
    · subst hne
      exact hc
    · exact h.free d ((leave_pending.mp hd).resolve_left hne)
  · exact h.chans
  · exact h.bus
  · exact h.tstart
  · exact h.msk
  · exact h.times
  · intro d
    by_cases hne : d = c
    · subst hne
      rw [leave_self]
      exact hf
    · rw [leave_sipacket hne]
      exact h.fires d

theorem SiOnce.fresh (ho : SiOnce s) : s.accepted.length ∉ s.started.map Prod.fst := by
  intro hm
  obtain ⟨e, he, heq⟩ := List.mem_map.mp hm
  have hacc := ho.started e he
  rw [heq, List.getElem?_eq_none (le_refl _)] at hacc
  cases hacc

theorem SiOnce.fresh_waiting (ho : SiOnce s) (hd : s.pending d) : (s.sipacket d).id ≠ s.accepted.length := by
  intro heq
  have hacc := (ho.waiting d hd).1
  rw [heq, List.getElem?_eq_none (le_refl _)] at hacc
  cases hacc

theorem getElem?_snoc_of_some {α : Type} {xs : List α} {x y : α} {n : Nat} (h : xs[n]? = some y) : (xs ++ [x])[n]? = some y := by
  rw [List.getElem?_append_left (List.getElem?_eq_some_iff.mp h).1, h]

theorem SiOnce.direct (ho : SiOnce s) (c : Fin 4) (x : SiXfer) : SiOnce (s.direct c x) := by
  have hstarted : (s.direct c x).started.map Prod.fst = s.started.map Prod.fst ++ [s.accepted.length] := by
    show (s.started ++ [_]).map Prod.fst = _
    rw [List.map_append]
    rfl
  constructor
  · rw [hstarted]
    exact List.Nodup.append ho.nodup (List.nodup_singleton _) (by simpa using ho.fresh)
  · intro e he
    have he : e ∈ s.started ++ [(s.accepted.length, (c.val : Int), x)] := he
    rcases List.mem_append.mp he with he | he
    · exact getElem?_snoc_of_some (ho.started e he)
    · rw [List.mem_singleton.mp he]
      exact List.getElem?_concat_length
  · intro d hd
    obtain ⟨hacc, hnot⟩ := ho.waiting d hd
    refine ⟨getElem?_snoc_of_some hacc, ?_⟩
    rw [hstarted]
    intro hm
    rcases List.mem_append.mp hm with hm | hm
    · exact hnot hm
    · exact ho.fresh_waiting hd (List.mem_singleton.mp hm)
  · exact ho.apart
  · intro id hid
    have hid : id < (s.accepted ++ [_]).length := hid
    rw [hstarted]
    rw [List.length_append, List.length_singleton] at hid
    by_cases hlast : id = s.accepted.length
    · exact .inl (List.mem_append_right _ (by simp [hlast]))
    · rcases ho.all id (by omega) with hm | hw
      · exact .inl (List.mem_append_left _ hm)
      · exact .inr hw

theorem SiOnce.leave (ho : SiOnce s) (hp : ¬ s.pending c) (x : SiXfer) (fire : Nat) (alarm : Option Nat) :
    SiOnce (s.leave c x fire alarm) := by
  constructor
  · exact ho.nodup
  · exact fun e he => getElem?_snoc_of_some (ho.started e he)
  · intro d hd
    by_cases hne : d = c
    · subst hne
      rw [leave_self]
      exact ⟨List.getElem?_concat_length, ho.fresh⟩
    · rw [leave_sipacket hne]
      obtain ⟨hacc, hnot⟩ := ho.waiting d ((leave_pending.mp hd).resolve_left hne)
      exact ⟨getElem?_snoc_of_some hacc, hnot⟩
  · intro d d' hd hd' heq
    by_cases hne : d = c
    · by_cases hne' : d' = c
      · rw [hne, hne']
      · subst hne
        rw [leave_self, leave_sipacket hne'] at heq
        exact absurd heq.symm (ho.fresh_waiting ((leave_pending.mp hd').resolve_left hne'))
    · by_cases hne' : d' = c
      · subst hne'
        rw [leave_self, leave_sipacket hne] at heq
        exact absurd heq (ho.fresh_waiting ((leave_pending.mp hd).resolve_left hne))
      · rw [leave_sipacket hne, leave_sipacket hne'] at heq
        exact ho.apart d d' ((leave_pending.mp hd).resolve_left hne) ((leave_pending.mp hd').resolve_left hne') heq
  · intro id hid
    have hid : id < (s.accepted ++ [_]).length := hid
    rw [List.length_append, List.length_singleton] at hid
    by_cases hlast : id = s.accepted.length
    · exact .inr ⟨c, leave_pending.mpr (.inl rfl), by rw [leave_self, hlast]⟩
    · rcases ho.all id (by omega) with hm | ⟨d, hd, hdid⟩
      · exact .inl hm
      · have hne : d ≠ c := fun heq => hp (heq ▸ hd)
        exact .inr ⟨d, leave_pending.mpr (.inr hd), by rw [leave_sipacket hne]; exact hdid⟩

/-- What else an event changes: the clock, an alarm, the callback. -/
structure SiSame (s t : SiState) : Prop where
  sipacket : t.sipacket = s.sipacket
  accepted : t.accepted = s.accepted
  started : t.started = s.started

theorem SiOnce.same {t : SiState} (ho : SiOnce s) (h : SiSame s t) : SiOnce t := by
  obtain ⟨hs, ha, hst⟩ := h
  have hp : ∀ d, t.pending d ↔ s.pending d := fun d => by unfold SiState.pending; rw [hs]
  constructor
  · rw [hst]; exact ho.nodup
  · rw [hst, ha]; exact ho.started
  · intro d hd
    rw [hs, ha, hst]
    exact ho.waiting d ((hp d).mp hd)
  · intro d d' hd hd'
    rw [hs]
    exact ho.apart d d' ((hp d).mp hd) ((hp d').mp hd')
  · intro id
    rw [ha, hst, hs]
    intro hid
    rcases ho.all id hid with hm | ⟨d, hd, hdid⟩
    · exact .inl hm
    · exact .inr ⟨d, (hp d).mpr hd, hdid⟩

end Books

/-! ## The events -/

section Events
variable {s : SiState} {c : Fin 4}

theorem microsecsToTicks_lt (us : Nat) : microsecsToTicks us < 2 ^ 62 := by
  unfold microsecsToTicks tbTimerClock
  omega

/-- **A call of `SI_Transfer`**: it is refused, its transfer starts, or its packet stays behind with the bus busy or an alarm set. -/
theorem SITransfer_cases (h : SiInv s) (x : SiXfer) (usDelay : Nat) {now : Nat} (hnow : now < 2 ^ 62) (start : Nat) :
    (SITransfer s c x usDelay now start).1 = s ∨
      (¬ s.pending c ∧ ¬ s.busy ∧ (SITransfer s c x usDelay now start).1 = s.direct c x) ∨
      ¬ s.pending c ∧ s.sicntrl.chan ≠ c.val ∧ ∃ fire alarm, fire < 2 ^ 63 ∧ (s.busy ∨ alarm ≠ none) ∧
        (SITransfer s c x usDelay now start).1 = s.leave c x fire alarm := by
  unfold SITransfer
  dsimp only
  by_cases hc : (s.sipacket c).chan = -1 ∧ s.sicntrl.chan ≠ (c.val : Int)
  · rw [if_pos hc]
    obtain ⟨hp, hchan⟩ := hc
    have hp : ¬ s.pending c := fun hp' => hp' hp
    right
    generalize hfire : (if usDelay ≠ 0 then (s.xferTime c + microsecsToTicks usDelay) % 2 ^ 64 else now) = fire
    have hlt : fire < 2 ^ 63 := by
      have hx := h.times.2 c
      have hm := microsecsToTicks_lt usDelay
      rw [← hfire]
      split <;> omega
    split
    · by_cases hb : s.busy
      · have hb' : SiState.busy { s with accepted := s.accepted ++ [((c.val : Int), x)] } := hb
        rw [siTransfer_busy hb']
        refine .inr ⟨hp, hchan, fire, s.siAlarm c, hlt, .inl hb, ?_⟩
        unfold SiState.leave
        rw [Function.update_eq_self]
        rfl
      · have hb' : ¬ SiState.busy { s with accepted := s.accepted ++ [((c.val : Int), x)] } := hb
        rw [siTransfer_idle hb']
        exact .inl ⟨hp, hb, rfl⟩
    · exact .inr ⟨hp, hchan, fire, _, hlt, .inr (Option.some_ne_none _), rfl⟩
  · rw [if_neg hc]
    exact .inl rfl

/-- The state in which `__si_transfernext` looks for the next packet. -/
def SiState.finish (s : SiState) (done last : Nat) : SiState :=
  siCompletetransfer { s.setClock last with sicntrl := { s.sicntrl with callback := 0 } } done

theorem finish_eq (hb : s.busy) (done last : Nat) : s.finish done last =
    { s with
      comcsr := { s.comcsr with tstart := false }
      xferTime := Function.update s.xferTime (Fin.ofNat 4 s.sicntrl.chan.toNat) done
      sicntrl := { s.sicntrl with callback := 0, chan := -1 }
      completed := s.completed + 1
      clock := last } := by
  unfold SiState.finish siCompletetransfer
  exact if_neg hb

theorem finish_idle (hb : s.busy) (done last : Nat) : ¬ (s.finish done last).busy := by
  rw [finish_eq hb]
  exact fun h => h rfl

theorem finish_same (hb : s.busy) (done last : Nat) : SiSame s (s.finish done last) := by
  rw [finish_eq hb]
  exact ⟨rfl, rfl, rfl⟩

theorem SiInv.finish (h : SiInv s) (hb : s.busy) {done last : Nat} (hd : done ≤ last) (hl : last < 2 ^ 62) :
    SiInv (s.finish done last) := by
  have hidle := finish_idle hb done last
  rw [finish_eq hb] at hidle ⊢
  constructor
  · exact h.slot
  · intro c _ heq
    have heq : (-1 : Int) = c.val := heq
    omega
  · exact fun hb' => absurd hb' hidle
  · have hbus := h.bus
    rw [if_pos hb] at hbus
    rw [if_neg hidle]
    exact hbus
  · exact ⟨fun ht => absurd ht Bool.false_ne_true, fun hb' => absurd hb' hidle⟩
  · exact fun hb' => absurd hb' hidle
  · refine ⟨hl, fun c => ?_⟩
    show Function.update s.xferTime _ done c < 2 ^ 62
    rw [Function.update_apply]
    split
    · omega
    · exact h.times.2 c
  · exact h.fires

/-- **The end of a transfer** starts the first packet that is due, and nothing when there is none. -/
theorem siNext_complete (h : SiInv s) (hb : s.busy) (done last : Nat) (now : Fin 4 → Nat) :
    siNext s (.complete done now last) =
      match (siOrder 4 (Fin.ofNat 4 s.sicntrl.chan.toNat)).find? (fun c => s.ready now c) with
      | none => s.finish done last
      | some c => (s.finish done last).launch c := by
  have hpacket := (finish_same hb done last).sipacket
  have hready : ∀ c, (s.finish done last).ready now c ↔ s.ready now c := by
    intro c
    unfold SiState.ready SiState.pending
    rw [hpacket]
  have hslot : ∀ c, (s.finish done last).pending c → ((s.finish done last).sipacket c).chan = c.val := by
    intro c
    unfold SiState.pending
    rw [hpacket]
    exact h.slot c
  have hnext := siTransfernext_idle (finish_idle hb done last) hslot now 4 (Fin.ofNat 4 s.sicntrl.chan.toNat)
  simp only [hready] at hnext
  exact hnext

theorem SiInv.setClock (h : SiInv s) {now : Nat} (hn : now < 2 ^ 62) : SiInv (s.setClock now) where
  slot := h.slot
  free := h.free
  chans := h.chans
  bus := h.bus
  tstart := h.tstart
  msk := h.msk
  times := ⟨hn, h.times.2⟩
  fires := h.fires

theorem SiInv.setAlarm (h : SiInv s) (c : Fin 4) (deadline : Option Nat) : SiInv (s.setAlarm c deadline) :=
  ⟨h.slot, h.free, h.chans, h.bus, h.tstart, h.msk, h.times, h.fires⟩

/-- What an alarm leaves: a packet on the bus, or one that the busy bus has refused, or nothing. -/
theorem siNext_alarm (s : SiState) (c : Fin 4) (now : Nat) :
    let t := (s.setClock now).setAlarm c none
    (siNext s (.alarm c now) = t ∧ (s.busy ∨ ¬ s.pending c)) ∨
      (siNext s (.alarm c now) = t.launch c ∧ ¬ s.busy ∧ s.pending c) := by
  intro t
  by_cases hb : s.busy
  · exact .inl ⟨siAlarmhandler_busy (s := t) hb, .inl hb⟩
  · by_cases hp : s.pending c
    · exact .inr ⟨siAlarmhandler_idle (s := t) hb hp (Function.update_self ..), hb, hp⟩
    · exact .inl ⟨siAlarmhandler_free (s := t) hp, .inr hp⟩

end Events

/-! ## Runs -/

section Runs
variable {s : SiState} {e : SiEvent}

theorem siStart_inv : SiInv siStart ∧ SiOnce siStart := by
  have hp : ∀ c, ¬ siStart.pending c := fun c hp => hp rfl
  have hb : ¬ siStart.busy := fun hb => hb rfl
  refine ⟨⟨fun c h => absurd h (hp c), fun c h => absurd h (hp c), fun h => absurd h hb, rfl, ?_, fun h => absurd h hb, ?_,
    fun c => ?_⟩, ⟨List.nodup_nil, ?_, fun c h => absurd h (hp c), fun c _ h => absurd h (hp c), ?_⟩⟩
  · exact ⟨fun h => absurd h Bool.false_ne_true, fun h => absurd h hb⟩
  · exact ⟨by decide, fun c => show 0 < 2 ^ 62 by decide⟩
  · show 0 < 2 ^ 63
    decide
  · exact fun e he => absurd he List.not_mem_nil
  · exact fun id hid => absurd hid (Nat.not_lt_zero id)

theorem SiInv.step (h : SiInv s) (ho : SiOnce s) (he : siSystem.enabled s e) : SiInv (siNext s e) ∧ SiOnce (siNext s e) := by
  cases e with
  | transfer c x usDelay now start =>
    obtain ⟨-, hns, hstart, -⟩ := he
    have h' := h.setClock hstart
    have ho' : SiOnce (s.setClock start) := ho.same ⟨rfl, rfl, rfl⟩
    show SiInv (SITransfer _ c x usDelay now start).1 ∧ SiOnce (SITransfer _ c x usDelay now start).1
    rcases SITransfer_cases (c := c) h' x usDelay (by omega : now < 2 ^ 62) start with hr | ⟨hp, hb, hr⟩ | ⟨hp, hc, fire, alarm, hf, -, hr⟩
    · rw [hr]
      exact ⟨h', ho'⟩
    · rw [hr]
      exact ⟨h'.direct hb hp x, ho'.direct c x⟩
    · rw [hr]
      exact ⟨h'.leave hc x hf alarm, ho'.leave hp x fire alarm⟩
  | complete done now last =>
    obtain ⟨⟨ht, -⟩, -, hnow, hlast⟩ := he
    have hb := h.tstart.mp ht
    have hfin := h.finish hb (le_trans (hnow 0).1 (hnow 0).2) hlast
    have hofin := ho.same (finish_same hb done last)
    rw [siNext_complete h hb]
    cases hfind : (siOrder 4 (Fin.ofNat 4 s.sicntrl.chan.toNat)).find? (fun c => s.ready now c) with
    | none => exact ⟨hfin, hofin⟩
    | some c =>
      have hr : s.ready now c := of_decide_eq_true (List.find?_some (p := fun c => s.ready now c) hfind)
      have hp : (s.finish done last).pending c := by
        unfold SiState.pending
        rw [(finish_same hb done last).sipacket]
        exact hr.1
      exact ⟨hfin.launch (finish_idle hb done last) hp, hofin.launch hfin hp⟩
  | alarm c now =>
    obtain ⟨-, -, hnow⟩ := he
    have h' := (h.setClock hnow).setAlarm c none
    have ho' : SiOnce ((s.setClock now).setAlarm c none) := ho.same ⟨rfl, rfl, rfl⟩
    rcases siNext_alarm s c now with ⟨hr, -⟩ | ⟨hr, hb, hp⟩
    · rw [hr]
      exact ⟨h', ho'⟩
    · rw [hr]
      exact ⟨h'.launch hb hp, ho'.launch h' hp⟩

/-- **No alarm went off too early**: when a transfer ends, a packet that waits for its deadline still has its alarm, or another packet
is due. -/
def siTimely (s : SiState) : SiEvent → Prop
  | .complete _ now _ => ∀ c, s.pending c → s.siAlarm c = none → now c < (s.sipacket c).fire →
      ∃ d, s.pending d ∧ (s.sipacket d).fire ≤ now d
  | _ => True

instance (s : SiState) : ∀ e, Decidable (siTimely s e)
  | .transfer .. => inferInstanceAs (Decidable True)
  | .complete .. => inferInstanceAs (Decidable (∀ _, _))
  | .alarm .. => inferInstanceAs (Decidable True)

theorem launch_awake (h : SiInv s) {c : Fin 4} (hp : s.pending c) : (s.launch c).Awake := fun _ _ => .inl (h.launch_busy hp)

theorem SiState.Awake.step (h : SiInv s) (ha : s.Awake) (he : siSystem.enabled s e) (ht : siTimely s e) : (siNext s e).Awake := by
  cases e with
  | transfer c x usDelay now start =>
    obtain ⟨-, hns, hstart, -⟩ := he
    show (SITransfer _ c x usDelay now start).1.Awake
    rcases SITransfer_cases (c := c) (h.setClock hstart) x usDelay (by omega : now < 2 ^ 62) start with
      hr | ⟨hp, hb, hr⟩ | ⟨hp, hc, fire, alarm, hf, hor, hr⟩
    · rw [hr]
      exact ha
    · rw [hr]
      intro d _
      refine .inl (show (c.val : Int) ≠ -1 by omega)
    · rw [hr]
      intro d hd
      by_cases hb : s.busy
      · exact .inl hb
      · right
        show Function.update s.siAlarm c alarm d ≠ none
        by_cases hne : d = c
        · subst hne
          rw [Function.update_self]
          exact hor.resolve_left hb
        · rw [Function.update_of_ne hne]
          exact (ha d ((leave_pending.mp hd).resolve_left hne)).resolve_left hb
  | complete done now last =>
    obtain ⟨⟨hts, -⟩, -, hnow, hlast⟩ := he
    have hb := h.tstart.mp hts
    have hfin := h.finish hb (le_trans (hnow 0).1 (hnow 0).2) hlast
    have hpacket := (finish_same hb done last).sipacket
    have hpend : ∀ d, (s.finish done last).pending d ↔ s.pending d := fun d => by unfold SiState.pending; rw [hpacket]
    rw [siNext_complete h hb]
    cases hfind : (siOrder 4 (Fin.ofNat 4 s.sicntrl.chan.toNat)).find? (fun c => s.ready now c) with
    | some c =>
      have hr : s.ready now c := of_decide_eq_true (List.find?_some (p := fun c => s.ready now c) hfind)
      exact launch_awake hfin ((hpend c).mpr hr.1)
    | none =>
      -- nothing is due, so nothing can be without its alarm
      have hnone : ∀ d, s.pending d → now d < (s.sipacket d).fire := by
        intro d hd
        have hno := List.find?_eq_none.mp hfind d (mem_siOrder _ d)
        by_contra hle
        refine hno (decide_eq_true ⟨hd, (siDue_iff (h.fires d) ?_).mpr (by omega)⟩)
        have := (hnow d).2
        omega
      intro d hd
      right
      have hd := (hpend d).mp hd
      rw [finish_eq hb]
      intro halarm
      obtain ⟨d', hd', hle⟩ := ht d hd halarm (hnone d hd)
      have := hnone d' hd'
      omega
  | alarm c now =>
    obtain ⟨-, -, hnow⟩ := he
    rcases siNext_alarm s c now with ⟨hr, hor⟩ | ⟨hr, hb, hp⟩
    · rw [hr]
      intro d hd
      by_cases hb : s.busy
      · exact .inl hb
      · right
        have hne : d ≠ c := fun heq => hor.resolve_left hb (heq ▸ hd)
        show Function.update s.siAlarm c none d ≠ none
        rw [Function.update_of_ne hne]
        exact (ha d hd).resolve_left hb
    · rw [hr]
      exact launch_awake ((h.setClock hnow).setAlarm c none) hp

theorem si_books {es : List SiEvent} (hes : siSystem.Legal siStart es) :
    SiInv (siSystem.run siStart es) ∧ SiOnce (siSystem.run siStart es) :=
  System.Legal.invariant (I := fun s => SiInv s ∧ SiOnce s) (fun _ _ hI he => hI.1.step hI.2 he) siStart_inv hes

/-! ## A packet that is due is started soon -/

def SiEvent.isComplete : SiEvent → Bool
  | .complete .. => true
  | _ => false

/-- How many transfers end before a packet that is due is started, at most. -/
def siNeed (s : SiState) (c : Fin 4) : Nat :=
  if s.busy then (siOrder 4 (Fin.ofNat 4 s.sicntrl.chan.toNat)).idxOf c + 1 else 3

theorem siOrder_closer : ∀ k c d : Fin 4, (siOrder 4 k).idxOf d < (siOrder 4 k).idxOf c →
    (siOrder 4 d).idxOf c < (siOrder 4 k).idxOf c := by decide

theorem siOrder_last : ∀ k c : Fin 4, c ≠ k → (siOrder 4 k).idxOf c < 3 := by decide

theorem find?_idxOf_lt {p : Fin 4 → Prop} [DecidablePred p] {l : List (Fin 4)} {c d : Fin 4} (hc : p c) (hne : c ≠ d)
    (h : l.find? (fun a => p a) = some d) : l.idxOf d < l.idxOf c := by
  induction l with
  | nil => cases h
  | cons a l ih =>
    rw [List.find?_cons] at h
    by_cases ha : p a
    · rw [decide_eq_true ha] at h
      have had : a = d := Option.some.inj h
      subst had
      rw [List.idxOf_cons_self, List.idxOf_cons_ne _ hne.symm]
      omega
    · rw [decide_eq_false ha] at h
      have hac : a ≠ c := fun heq => ha (heq ▸ hc)
      have hd : p d := of_decide_eq_true (List.find?_some (p := fun a => p a) h)
      have had : a ≠ d := fun heq => ha (heq ▸ hd)
      rw [List.idxOf_cons_ne _ hac, List.idxOf_cons_ne _ had]
      exact Nat.succ_lt_succ (ih h)

theorem ofNat_chan (c : Fin 4) : Fin.ofNat 4 ((c.val : Int).toNat) = c := by
  rw [Int.toNat_natCast]
  exact Fin.ext (Nat.mod_eq_of_lt c.isLt)

theorem siNeed_busy {k c : Fin 4} (hk : s.sicntrl.chan = k.val) : siNeed s c = (siOrder 4 k).idxOf c + 1 := by
  have hb : s.busy := by
    unfold SiState.busy
    omega
  unfold siNeed
  rw [if_pos hb, hk, ofNat_chan]

theorem siNeed_le {k c : Fin 4} (hk : s.sicntrl.chan = k.val) (hne : c ≠ k) : siNeed s c ≤ 3 := by
  rw [siNeed_busy hk]
  exact siOrder_last k c hne

theorem siNext_started (h : SiInv s) (he : siSystem.enabled s e) : s.started <+: (siNext s e).started := by
  cases e with
  | transfer c x usDelay now start =>
    obtain ⟨-, hns, hstart, -⟩ := he
    show s.started <+: (SITransfer _ c x usDelay now start).1.started
    rcases SITransfer_cases (c := c) (h.setClock hstart) x usDelay (by omega : now < 2 ^ 62) start with
      hr | ⟨-, -, hr⟩ | ⟨-, -, fire, alarm, -, -, hr⟩
    · rw [hr]; exact List.prefix_rfl
    · rw [hr]; exact List.prefix_append ..
    · rw [hr]; exact List.prefix_rfl
  | complete done now last =>
    have hb := h.tstart.mp he.1.1
    have hs := (finish_same hb done last).started
    rw [siNext_complete h hb]
    split
    · rw [hs]
    · show s.started <+: (s.finish done last).started ++ _
      rw [hs]
      exact List.prefix_append ..
  | alarm c now =>
    rcases siNext_alarm s c now with ⟨hr, -⟩ | ⟨hr, -, -⟩
    · rw [hr]; exact List.prefix_rfl
    · rw [hr]; exact List.prefix_append ..

theorem launch_started (c : Fin 4) : (s.sipacket c).id ∈ (s.launch c).started.map Prod.fst := by
  show _ ∈ (s.started ++ [_]).map Prod.fst
  rw [List.map_append]
  exact List.mem_append_right _ (List.mem_singleton.mpr rfl)

/-- **One event** starts a packet that is due, or leaves it due and no further from its turn; the end of a transfer brings it nearer. -/
theorem siNext_need (h : SiInv s) (he : siSystem.enabled s e) {c : Fin 4} (hp : s.pending c)
    (hf : (s.sipacket c).fire ≤ s.clock) :
    (s.sipacket c).id ∈ (siNext s e).started.map Prod.fst ∨
      ((siNext s e).sipacket c = s.sipacket c ∧ s.clock ≤ (siNext s e).clock ∧
        siNeed (siNext s e) c + (if e.isComplete then 1 else 0) ≤ siNeed s c) := by
  cases e with
  | transfer d x usDelay now start =>
    obtain ⟨hcn, hns, hstart, -⟩ := he
    show _ ∈ (SITransfer _ d x usDelay now start).1.started.map Prod.fst ∨ ((SITransfer _ d x usDelay now start).1.sipacket c = _ ∧
      s.clock ≤ (SITransfer _ d x usDelay now start).1.clock ∧ siNeed (SITransfer _ d x usDelay now start).1 c + 0 ≤ _)
    right
    rcases SITransfer_cases (c := d) (h.setClock hstart) x usDelay (by omega : now < 2 ^ 62) start with
      hr | ⟨hd, hb, hr⟩ | ⟨hd, -, fire, alarm, -, -, hr⟩
    · rw [hr]
      exact ⟨rfl, by show s.clock ≤ start; omega, le_refl _⟩
    · have hne : c ≠ d := fun heq => hd (heq ▸ hp)
      have hb : ¬ s.busy := hb
      rw [hr]
      refine ⟨rfl, by show s.clock ≤ start; omega, ?_⟩
      rw [show siNeed s c = 3 from if_neg hb]
      exact siNeed_le (s := (s.setClock start).direct d x) rfl hne
    · have hne : c ≠ d := fun heq => hd (heq ▸ hp)
      rw [hr]
      exact ⟨leave_sipacket hne x fire alarm, by show s.clock ≤ start; omega, le_refl _⟩
  | complete done now last =>
    obtain ⟨⟨hts, -⟩, hcd, hnow, hlast⟩ := he
    have hb := h.tstart.mp hts
    obtain ⟨k, hk⟩ := h.chans hb
    have hpacket := (finish_same hb done last).sipacket
    have hready : s.ready now c := by
      refine ⟨hp, (siDue_iff (h.fires c) ?_).mpr ?_⟩
      · have := (hnow c).2
        omega
      · have := (hnow c).1
        omega
    have hclock : s.clock ≤ last := by
      have := hnow c
      omega
    rw [siNext_complete h hb, siNeed_busy hk, hk, ofNat_chan]
    cases hfind : (siOrder 4 k).find? (fun c => s.ready now c) with
    | none => exact absurd (decide_eq_true hready) (List.find?_eq_none.mp hfind c (mem_siOrder k c))
    | some d =>
      have hd : s.ready now d := of_decide_eq_true (List.find?_some (p := fun c => s.ready now c) hfind)
      have hdp : (s.finish done last).pending d := by
        unfold SiState.pending
        rw [hpacket]
        exact hd.1
      have hfin := h.finish hb (le_trans (hnow 0).1 (hnow 0).2) hlast
      by_cases hne : c = d
      · subst hne
        left
        have hm := launch_started (s := s.finish done last) c
        rwa [hpacket] at hm
      · right
        refine ⟨by rw [launch_sipacket hne, hpacket], ?_, ?_⟩
        · rw [finish_eq hb]
          exact hclock
        · have hlt := siOrder_closer k c d (find?_idxOf_lt hready hne hfind)
          have hneed := siNeed_busy (s := (s.finish done last).launch d) (c := c) (hfin.launch_chan hdp)
          show siNeed ((s.finish done last).launch d) c + 1 ≤ _
          omega
  | alarm d now =>
    obtain ⟨-, hcn, hnow⟩ := he
    rcases siNext_alarm s d now with ⟨hr, -⟩ | ⟨hr, hb, hd⟩
    · rw [hr]
      exact .inr ⟨rfl, hcn, le_refl _⟩
    · rw [hr]
      by_cases hne : c = d
      · subst hne
        exact .inl (launch_started c)
      · right
        have h' := (h.setClock hnow).setAlarm d none
        refine ⟨launch_sipacket hne, hcn, ?_⟩
        rw [show siNeed s c = 3 from if_neg hb]
        exact siNeed_le (h'.launch_chan hd) hne

theorem si_started_prefix {es : List SiEvent} : ∀ {s : SiState}, SiInv s → SiOnce s → siSystem.Legal s es →
    s.started <+: (siSystem.run s es).started := by
  induction es with
  | nil => exact fun _ _ _ => List.prefix_rfl
  | cons e es ih =>
    intro s h ho hl
    obtain ⟨h', ho'⟩ := h.step ho hl.1
    exact (siNext_started h hl.1).trans (ih h' ho' hl.2)

/-- **A packet that is due is started** before three more transfers have ended. -/
theorem si_served {es : List SiEvent} : ∀ {s : SiState}, SiInv s → SiOnce s → siSystem.Legal s es → ∀ {c : Fin 4}, s.pending c →
    (s.sipacket c).fire ≤ s.clock → siNeed s c ≤ es.countP SiEvent.isComplete →
    (s.sipacket c).id ∈ (siSystem.run s es).started.map Prod.fst := by
  induction es with
  | nil =>
    intro s h ho hl c hp hf hn
    have hpos : 0 < siNeed s c := by
      unfold siNeed
      split <;> omega
    have hn : siNeed s c ≤ 0 := hn
    omega
  | cons e es ih =>
    intro s h ho hl c hp hf hn
    obtain ⟨h', ho'⟩ := h.step ho hl.1
    show _ ∈ (siSystem.run (siNext s e) es).started.map Prod.fst
    rcases siNext_need h hl.1 hp hf with hm | ⟨hsame, hclock, hneed⟩
    · have hpre := si_started_prefix h' ho' hl.2
      exact (hpre.map Prod.fst).subset hm
    · rw [← hsame]
      refine ih h' ho' hl.2 ?_ (by rw [hsame]; omega) ?_
      · unfold SiState.pending
        rw [hsame]
        exact hp
      · rw [List.countP_cons] at hn
        omega

end Runs

def siSampleXfer : SiXfer := ⟨0, 1, 0, 3, 1⟩

/-- A packet that waits for the bus. -/
def siSample : List SiEvent :=
  [.transfer 1 siSampleXfer 0 0 0, .transfer 0 siSampleXfer 0 1 1, .complete 100 (fun _ => 100) 100]

/-- A second packet for the same channel, 65 microseconds after the first; its alarm is set for the tick before. -/
def siEarly : List SiEvent :=
  [.transfer 1 siSampleXfer 0 0 0, .complete 100 (fun _ => 100) 100, .transfer 1 siSampleXfer 65 105 105,
    .transfer 0 siSampleXfer 0 2000 2000, .alarm 1 2731, .complete 2731 (fun _ => 2731) 2731]

end Libogc
