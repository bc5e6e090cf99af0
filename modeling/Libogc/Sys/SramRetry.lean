import Libogc.Sys.SramRuns
/-!
# SramRetry — writes that are never made good

`__unlocksram` writes only while `sync` is set, and of the ways in which `__sram_write` can fail only a locked channel leaves
`__sram_writecallback` behind.  So after any other failure nobody writes again (`SramLost`); while there is none, either `sync` is set or
a callback is on the channel (`SramHeld`), and a channel that works completes the write.
-/
namespace Libogc

open Runs

/-- The write arrives whole. -/
def SramExi.works : SramExi → Bool
  | .sent cmd data deselect _ => cmd && data && deselect
  | _ => false

/-- It arrives, or leaves its callback on the channel. -/
def SramExi.reaches : SramExi → Bool
  | .locked node => node
  | exi => exi.works

/-- Each write that is tried reaches the device or leaves its callback. -/
def sramReaches (s : SramSys) : SramEvent → Prop
  | .unlock write exi => write = true → s.sync = true → exi.reaches = true
  | .callback exi => exi.reaches = true
  | _ => True

/-- **The channel works.** -/
def sramWorks (_ : SramSys) : SramEvent → Prop
  | .unlock _ exi => exi.works = true
  | .callback exi => exi.works = true
  | _ => True

instance sramReaches.dec (s : SramSys) : ∀ e, Decidable (sramReaches s e)
  | .lock _ => inferInstanceAs (Decidable True)
  | .modify .. => inferInstanceAs (Decidable True)
  | .unlock .. => inferInstanceAs (Decidable (_ → _ → _))
  | .callback _ => inferInstanceAs (Decidable (_ = _))
  | .back _ => inferInstanceAs (Decidable True)

/-- Nothing is left to write, and nobody is in a session. -/
structure SramDone (s : SramSys) : Prop where
  sync : s.sync = true
  offset : s.offset = 64
  queued : s.queued = 0
  writes : s.writes = []
  session : s.session = none

/-- **No update is stranded**: where the device does not have everything, `sync` is set, or the callback is on the channel or at its
write; and some events complete the write once the channel works. -/
structure SramKept (s : SramSys) : Prop where
  retried : s.offset < 64 ∨ s.device ≠ s.srambuf → s.sync = true ∨ 0 < s.queued ∨ ∃ w ∈ s.writes, w.deferred = true
  completed : ∃ es, (sramSystem.restrict sramWorks).Legal s es ∧ SramDone (sramSystem.run s es)

/-! ## After a failure -/

/-- The last write has failed, and nobody will try again. -/
structure SramLost (s : SramSys) : Prop where
  queued : s.queued = 0
  writes : ∀ w ∈ s.writes, w.ret = false
  sync : s.sync = true → s.writes ≠ [] ∧ s.session = none ∧ s.locked = true

section Lost
variable {s : SramSys}

theorem SramLost.not_done (h : SramLost s) : ¬ SramDone s := fun hd => (h.sync hd.sync).1 hd.writes

theorem SramLost.step (h : SramLost s) {e : SramEvent} (he : sramSystem.enabled s e) : SramLost (sramNext s e) := by
  have he : sramGuard s e = true := he
  cases e with
  | lock area =>
    show SramLost (locksram s area)
    unfold locksram
    split
    · exact h
    · next hl => exact ⟨h.queued, h.writes, fun hs => absurd (h.sync hs).2.2 hl⟩
  | modify i v => exact ⟨h.queued, h.writes, h.sync⟩
  | unlock write exi =>
    obtain ⟨hsession, -⟩ := Bool.and_eq_true_iff.1 he
    obtain ⟨area, harea⟩ := Option.isSome_iff_exists.1 hsession
    have hsync : s.sync = false := by
      cases hs : s.sync with
      | false => rfl
      | true => rw [(h.sync hs).2.1] at harea; cases harea
    have hno : ∀ {P : Prop}, s.sync = true → P := fun hs => by rw [hsync] at hs; cases hs
    rw [sramNext_unlock harea]
    unfold unlocksram
    cases write with
    | false => exact ⟨h.queued, h.writes, hno⟩
    | true =>
      rw [if_pos rfl]
      dsimp only
      rw [if_neg]
      · cases area <;> exact ⟨h.queued, h.writes, hno⟩
      · cases area <;> exact fun hs => hno hs
  | callback exi => exact absurd (of_decide_eq_true he) (by rw [h.queued]; exact Nat.lt_irrefl 0)
  | back i =>
    have hlt : i < s.writes.length := of_decide_eq_true he
    have hret : (s.writes[i]).ret = false := h.writes _ (List.getElem_mem hlt)
    rw [sramNext_back (List.getElem?_eq_getElem hlt)]
    refine ⟨h.queued, fun w hw => h.writes w (List.mem_of_mem_eraseIdx hw), fun hs => ?_⟩
    have hs : (s.writes[i]).ret = true := hs
    rw [hret] at hs
    cases hs

theorem SramLost.run {es : List SramEvent} (h : SramLost s) (hl : sramSystem.Legal s es) : SramLost (sramSystem.run s es) :=
  System.Legal.invariant (fun _ _ h he => h.step he) h hl

theorem SramLost.not_kept (h : SramLost s) : ¬ SramKept s := by
  rintro ⟨-, es, hl, hdone⟩
  exact (h.run hl.of_restrict).not_done hdone

end Lost

/-! ## Without a failure -/

structure SramHeld (s : SramSys) : Prop where
  one : s.queued + s.writes.length ≤ 1
  quiet : s.sync = true → s.queued = 0 ∧ ∀ w ∈ s.writes, w.deferred = false
  direct : ∀ w ∈ s.writes, w.deferred = false → s.session = none ∧ s.locked = true
  session : s.session ≠ none → s.locked = true
  full : SramFull s
  well : ∀ w ∈ s.writes, w.ret = true
  waits : s.sync = false → 0 < s.queued ∨ ∃ w ∈ s.writes, w.deferred = true

section Held
variable {s : SramSys}

/-- **A write** by the only activation there is: it arrives or leaves its callback, or all is lost. -/
theorem sramWrite_held (exi : SramExi) {deferred : Bool} (hq : s.queued = 0) (hw : s.writes = [])
    (hsession : s.session ≠ none → s.locked = true) (hd : deferred = true → s.sync = false)
    (hu : deferred = false → s.session = none ∧ s.locked = true ∧ s.sync = true) :
    (exi.reaches = true → SramHeld (sramWrite s deferred exi)) ∧ (exi.reaches = false → SramLost (sramWrite s deferred exi)) := by
  -- the activation that is in its unlock
  have hin : ∀ (ret : Bool) (device : SramBuf), let t : SramSys := { s with device := device, writes := s.writes ++ [⟨deferred, ret⟩] }
      (ret = true → SramHeld t) ∧ (ret = false → SramLost t) := by
    intro ret device
    have hmem : ∀ {w : SramWrite}, w ∈ s.writes ++ [⟨deferred, ret⟩] → w = ⟨deferred, ret⟩ := by
      intro w hm
      rw [hw, List.nil_append] at hm
      exact List.mem_singleton.mp hm
    constructor
    · rintro rfl
      refine ⟨?_, fun hs => ⟨hq, fun w hm => ?_⟩, fun w hm hwd => ?_, hsession, fun _ he => ?_, fun w hm => ?_, fun hs => .inr ?_⟩
      · show s.queued + (s.writes ++ [_]).length ≤ 1
        rw [hq, hw, List.nil_append, List.length_singleton]
      · obtain rfl := hmem hm
        cases deferred with
        | false => rfl
        | true =>
          have hs : s.sync = true := hs
          rw [hd rfl] at hs
          cases hs
      · obtain rfl := hmem hm
        exact ⟨(hu hwd).1, (hu hwd).2.1⟩
      · exact absurd he (List.append_ne_nil_of_right_ne_nil _ (List.cons_ne_nil _ _))
      · rw [hmem hm]
      · refine ⟨⟨deferred, true⟩, List.mem_append_right _ List.mem_cons_self, ?_⟩
        cases deferred with
        | true => rfl
        | false =>
          have hs : s.sync = false := hs
          rw [(hu rfl).2.2] at hs
          cases hs
    · rintro rfl
      refine ⟨hq, fun w hm => by rw [hmem hm], fun hs => ⟨List.append_ne_nil_of_right_ne_nil _ (List.cons_ne_nil _ _), ?_⟩⟩
      cases deferred with
      | false => exact ⟨(hu rfl).1, (hu rfl).2.1⟩
      | true =>
        have hs : s.sync = true := hs
        rw [hd rfl] at hs
        cases hs
  cases exi with
  | locked node =>
    have hnone : ∀ {P : SramWrite → Prop}, ∀ w ∈ (sramWrite s deferred (.locked node)).writes, P w := by
      intro P w hm
      rw [show (sramWrite s deferred (.locked node)).writes = [] from hw] at hm
      cases hm
    constructor
    · rintro rfl
      refine ⟨?_, (fun hs => by cases hs), hnone, fun hs => ?_, (fun hs => by cases hs), hnone, fun _ => .inl ?_⟩
      · show s.queued + 1 + s.writes.length ≤ 1
        rw [hq, hw, List.length_nil]
      · cases deferred with
        | true => exact hsession hs
        | false => exact absurd (hu rfl).1 hs
      · exact Nat.succ_pos _
    · rintro rfl
      exact ⟨hq, hnone, (fun hs => by cases hs)⟩
  | unselected => exact ⟨(fun hr => by cases hr), fun _ => (hin false s.device).2 rfl⟩
  | sent cmd data deselect garbage =>
    exact ⟨(hin (cmd && data && deselect) _).1, (hin (cmd && data && deselect) _).2⟩

theorem sramNext_back_one {w : SramWrite} (hw : s.writes = [w]) : sramNext s (.back 0) = sramReturn { s with writes := [] } w := by
  simp only [sramNext, hw, List.getElem?_cons_zero, List.eraseIdx_cons_zero]

/-- **Each event** holds the update, unless it is a write that fails outright: then the update is lost. -/
theorem SramHeld.step (h : SramHeld s) {e : SramEvent} (he : sramSystem.enabled s e) :
    (sramReaches s e → SramHeld (sramNext s e)) ∧ (¬ sramReaches s e → SramLost (sramNext s e)) := by
  have he : sramGuard s e = true := he
  have htrue : ∀ {P : Prop}, ¬ True → P := fun hn => absurd trivial hn
  cases e with
  | lock area =>
    refine ⟨fun _ => ?_, htrue⟩
    show SramHeld (locksram s area)
    unfold locksram
    split
    · exact h
    · next hl => exact ⟨h.one, h.quiet, fun w hw hd => absurd (h.direct w hw hd).2 hl, fun _ => rfl, h.full, h.well, h.waits⟩
  | modify i v => exact ⟨fun _ => ⟨h.one, h.quiet, h.direct, h.session, h.full, h.well, h.waits⟩, htrue⟩
  | unlock write exi =>
    obtain ⟨hsession, -⟩ := Bool.and_eq_true_iff.1 he
    obtain ⟨area, harea⟩ := Option.isSome_iff_exists.1 hsession
    have hdef : ∀ w ∈ s.writes, w.deferred ≠ false := by
      intro w hw hd
      rw [(h.direct w hw hd).1] at harea
      cases harea
    rw [sramNext_unlock harea]
    unfold unlocksram
    cases write with
    | false =>
      refine ⟨fun _ => ⟨h.one, h.quiet, fun w hw hd => absurd hd (hdef w hw), fun hs => absurd rfl hs, h.full, h.well, h.waits⟩,
        fun hn => absurd (fun hw => by cases hw) hn⟩
    | true =>
      obtain ⟨k1, k2, k3, k4, k5⟩ := sramSubmit_keeps { s with session := none, modified := false } area
      rw [if_pos rfl]
      dsimp only
      generalize sramSubmit { s with session := none, modified := false } area = t at k1 k2 k3 k4 k5 ⊢
      dsimp only at k1 k2 k3 k4 k5
      cases hs : s.sync with
      | true =>
        rw [if_pos (k1.trans hs)]
        have hwr : s.writes = [] := List.eq_nil_iff_forall_not_mem.mpr fun w hw => hdef w hw ((h.quiet hs).2 w hw)
        obtain ⟨hheld, hlost⟩ := @sramWrite_held t exi false (k3.trans (h.quiet hs).1) (k2.trans hwr)
          (fun hne => absurd k4 hne) (fun hd => by cases hd) (fun _ => ⟨k4, k5.trans (h.session (by simp [harea])), k1.trans hs⟩)
        refine ⟨fun hr => hheld (hr rfl hs), fun hn => hlost ?_⟩
        cases hr : exi.reaches with
        | false => rfl
        | true => exact absurd (fun _ _ => hr) hn
      | false =>
        rw [if_neg (by rw [k1, hs]; exact Bool.false_ne_true)]
        refine ⟨fun _ => ⟨?_, fun hs' => ?_, fun w hw hd => ?_, fun hne => absurd k4 hne, fun hs' => ?_, fun w hw => ?_, fun _ => ?_⟩,
          fun hn => absurd (fun _ hs' => by rw [hs] at hs'; cases hs') hn⟩
        · show t.queued + t.writes.length ≤ 1
          rw [k2, k3]
          exact h.one
        · have hs' : t.sync = true := hs'
          rw [k1, hs] at hs'
          cases hs'
        · have hw : w ∈ t.writes := hw
          rw [k2] at hw
          exact absurd hd (hdef w hw)
        · have hs' : t.sync = true := hs'
          rw [k1, hs] at hs'
          cases hs'
        · have hw : w ∈ t.writes := hw
          rw [k2] at hw
          exact h.well w hw
        · show 0 < t.queued ∨ ∃ w ∈ t.writes, w.deferred = true
          rw [k2, k3]
          exact h.waits hs
  | callback exi =>
    have hone := h.one
    have hpos : 0 < s.queued := of_decide_eq_true he
    have hwr : s.writes = [] := List.length_eq_zero_iff.mp (by omega)
    have hsync : s.sync = false := by
      cases hs : s.sync with
      | false => rfl
      | true => exact absurd (h.quiet hs).1 (by omega)
    obtain ⟨hheld, hlost⟩ := @sramWrite_held { s with queued := s.queued - 1 } exi true
      (show s.queued - 1 = 0 by omega) hwr h.session (fun _ => hsync) (fun hd => by cases hd)
    refine ⟨hheld, fun hn => hlost ?_⟩
    cases hr : exi.reaches with
    | false => rfl
    | true => exact absurd hr hn
  | back i =>
    have hlt : i < s.writes.length := of_decide_eq_true he
    have hone := h.one
    obtain ⟨w, hw⟩ : ∃ w, s.writes = [w] := List.length_eq_one_iff.1 (by omega)
    have hi : i = 0 := by
      rw [hw] at hlt
      exact Nat.lt_one_iff.mp hlt
    have hq : s.queued = 0 := by
      rw [hw, List.length_singleton] at hone
      omega
    have hmem : w ∈ s.writes := hw ▸ List.mem_singleton_self w
    have hret : w.ret = true := h.well w hmem
    have hnone : ∀ {P : SramWrite → Prop}, ∀ w ∈ ([] : List SramWrite), P w := by
      intro P w hm
      cases hm
    rw [hi, sramNext_back_one hw]
    refine ⟨fun _ => ⟨?_, fun _ => ⟨hq, hnone⟩, hnone, fun hne => ?_, sramReturn_full _ w, hnone, fun hs => ?_⟩, htrue⟩
    · show s.queued + 0 ≤ 1
      omega
    · show (if w.deferred then s.locked else false) = true
      cases hd : w.deferred with
      | true => exact h.session hne
      | false => exact absurd (h.direct w hmem hd).1 hne
    · have hs : w.ret = false := hs
      rw [hret] at hs
      cases hs

theorem sramStart_held (srambuf device : SramBuf) : SramHeld (sramStart srambuf device true) where
  one := Nat.zero_le _
  quiet := fun _ => ⟨rfl, (fun w hw => by cases hw)⟩
  direct := fun w hw => by cases hw
  session := fun hne => absurd rfl hne
  full := fun _ _ => rfl
  well := fun w hw => by cases hw
  waits := fun hs => by cases hs

/-! ## A channel that works -/

/-- A write that arrives. -/
def sramSent : SramExi := .sent true true true fun _ => 0

theorem SramHeld.returned (h : SramHeld s) {w : SramWrite} (hw : s.writes = [w]) :
    sramSystem.enabled s (.back 0) ∧ let t := sramNext s (.back 0)
      SramHeld t ∧ t.sync = true ∧ t.writes = [] ∧ t.session = s.session := by
  have hlt : 0 < s.writes.length := by
    rw [hw]
    exact Nat.one_pos
  have he : sramSystem.enabled s (.back 0) := decide_eq_true hlt
  have hheld := (h.step he).1 trivial
  refine ⟨he, hheld, ?_⟩
  rw [sramNext_back_one hw]
  exact ⟨h.well w (hw ▸ List.mem_singleton_self w), rfl, rfl⟩

theorem SramHeld.written (h : SramHeld s) : ∃ es, (sramSystem.restrict sramWorks).Legal s es ∧ (sramSystem.restrict sramQuiet).Legal s es ∧
    let t := sramSystem.run s es
    SramHeld t ∧ t.sync = true ∧ t.writes = [] ∧ t.session = s.session := by
  have hone := h.one
  cases hw : s.writes with
  | cons w rest =>
    have hrest : rest = [] := by
      rw [hw, List.length_cons] at hone
      exact List.length_eq_zero_iff.mp (by omega)
    obtain ⟨he, hback⟩ := h.returned (hrest ▸ hw)
    exact ⟨[.back 0], ⟨⟨he, trivial⟩, trivial⟩, ⟨⟨he, trivial⟩, trivial⟩, hback⟩
  | nil =>
    cases hs : s.sync with
    | true => exact ⟨[], trivial, trivial, h, hs, hw, rfl⟩
    | false =>
      have hpos : 0 < s.queued := by
        rcases h.waits hs with hpos | ⟨w, hm, -⟩
        · exact hpos
        · rw [hw] at hm
          cases hm
      have he : sramSystem.enabled s (.callback sramSent) := decide_eq_true hpos
      have hheld : SramHeld (sramNext s (.callback sramSent)) := (h.step he).1 rfl
      have hwrites : (sramNext s (.callback sramSent)).writes = [⟨true, true⟩] := by
        show s.writes ++ [_] = _
        rw [hw]
        rfl
      obtain ⟨he', hback⟩ := hheld.returned hwrites
      exact ⟨[.callback sramSent, .back 0], ⟨⟨he, rfl⟩, ⟨he', trivial⟩, trivial⟩, ⟨⟨he, trivial⟩, ⟨he', trivial⟩, trivial⟩, hback⟩

theorem SramHeld.done (h : SramHeld s) : ∃ es, (sramSystem.restrict sramWorks).Legal s es ∧ (sramSystem.restrict sramQuiet).Legal s es ∧
    SramDone (sramSystem.run s es) := by
  have hdone : ∀ {t : SramSys}, SramHeld t → t.sync = true → t.writes = [] → t.session = none → SramDone t :=
    fun ht hs hw hn => ⟨hs, ht.full hs hw, (ht.quiet hs).1, hw, hn⟩
  obtain ⟨es, hworks, hquiet, ht, hs, hw, -⟩ := h.written
  generalize hrun : sramSystem.run s es = t at ht hs hw
  cases hsession : t.session with
  | none => exact ⟨es, hworks, hquiet, hrun ▸ hdone ht hs hw hsession⟩
  | some area =>
    have he : sramSystem.enabled t (.unlock true sramSent) := by
      show (t.session.isSome && (true || !t.modified)) = true
      rw [hsession]
      rfl
    have hheld : SramHeld (sramNext t (.unlock true sramSent)) := (ht.step he).1 fun _ _ => rfl
    have hnext : (sramNext t (.unlock true sramSent)).writes = [⟨false, true⟩] ∧
        (sramNext t (.unlock true sramSent)).session = none := by
      simp only [sramNext, hsession, unlocksram]
      cases area <;> simp [sramSubmit, hs, hw, sramWrite, sramSent]
    have hq : sramQuiet t (.unlock true sramSent) := by
      intro _ w hm
      rw [hw] at hm
      cases hm
    obtain ⟨he', hheld', hs', hw', hsame⟩ := hheld.returned hnext.1
    have hfinal : SramDone (sramSystem.run s (es ++ [.unlock true sramSent, .back 0])) := by
      rw [System.run_append, hrun]
      exact hdone hheld' hs' hw' (hsame.trans hnext.2)
    refine ⟨es ++ [.unlock true sramSent, .back 0], System.legal_append hworks ?_, System.legal_append hquiet ?_, hfinal⟩
    · show System.Legal _ (sramSystem.run s es) _
      rw [hrun]
      exact ⟨⟨he, rfl⟩, ⟨he', trivial⟩, trivial⟩
    · show System.Legal _ (sramSystem.run s es) _
      rw [hrun]
      exact ⟨⟨he, hq⟩, ⟨he', trivial⟩, trivial⟩

theorem SramHeld.kept (h : SramHeld s) : SramKept s := by
  obtain ⟨es, hworks, -, hdone⟩ := h.done
  refine ⟨fun _ => ?_, es, hworks, hdone⟩
  cases hs : s.sync with
  | true => exact .inl rfl
  | false => exact .inr (h.waits hs)

theorem SramHeld.run {es : List SramEvent} (h : SramHeld s) (hl : (sramSystem.restrict sramReaches).Legal s es) :
    SramHeld (sramSystem.run s es) := by
  have hrun := hl.invariant (I := SramHeld) (fun s e h he => by exact (h.step he.1).1 he.2) h
  exact hrun

/-- **A run keeps every update** as long as no write fails outright, and not a step longer. -/
theorem SramHeld.kept_iff {es : List SramEvent} : ∀ {s : SramSys}, SramHeld s → sramSystem.Legal s es →
    ((sramSystem.restrict sramReaches).Legal s es ↔ ∀ pre, pre <+: es → SramKept (sramSystem.run s pre)) := by
  induction es with
  | nil =>
    refine fun h _ => ⟨fun _ pre hpre => ?_, fun _ => trivial⟩
    rw [List.prefix_nil.mp hpre]
    exact h.kept
  | cons e es ih =>
    intro s h hl
    obtain ⟨he, hl⟩ := hl
    obtain ⟨hheld, hlost⟩ := h.step he
    constructor
    · rintro ⟨⟨-, hr⟩, hrest⟩ pre hpre
      rcases List.prefix_cons_iff.mp hpre with rfl | ⟨rest, rfl, hrest'⟩
      · exact h.kept
      · exact (ih (hheld hr) hl).mp hrest rest hrest'
    · intro hkept
      have hr : sramReaches s e := by
        by_contra hn
        exact (hlost hn).not_kept (hkept [e] (List.prefix_iff_eq_take.mpr rfl))
      refine ⟨⟨he, hr⟩, (ih (hheld hr) hl).mpr fun pre hpre => ?_⟩
      exact hkept (e :: pre) (List.cons_prefix_cons.mpr ⟨rfl, hpre⟩)

end Held

/-- **No stranded update.**  After a successful `__sram_init` every state of a run keeps the update exactly if each write that was tried
reached the device or left its callback; and the device then gets all of the copy, unless a session has written while a deferred write
that went well was in its `EXI_Unlock`. -/
theorem sram_no_stranded {srambuf device : SramBuf} {es : List SramEvent} (hl : sramSystem.Legal (sramStart srambuf device true) es) :
    ((sramSystem.restrict sramReaches).Legal (sramStart srambuf device true) es ↔
      ∀ pre, pre <+: es → SramKept (sramSystem.run (sramStart srambuf device true) pre)) ∧
    ((sramSystem.restrict sramReaches).Legal (sramStart srambuf device true) es →
      (sramSystem.restrict sramQuiet).Legal (sramStart srambuf device true) es →
      ∃ es', (sramSystem.restrict sramWorks).Legal (sramSystem.run (sramStart srambuf device true) es) es' ∧
        let t := sramSystem.run (sramSystem.run (sramStart srambuf device true) es) es'
        SramDone t ∧ t.device = t.srambuf) := by
  have hstart := sramStart_held srambuf device
  refine ⟨hstart.kept_iff hl, fun hreaches hquiet => ?_⟩
  obtain ⟨es', hworks, hquiet', hdone⟩ := (hstart.run hreaches).done
  have hinv := hquiet'.invariant (I := SramInv) (fun _ _ h he => h.step he)
    (hquiet.invariant (fun _ _ h he => h.step he) (sramStart_inv srambuf device true))
  have hlive : SramInv (sramSystem.run (sramSystem.run (sramStart srambuf device true) es) es') := hinv
  refine ⟨es', hworks, hdone, funext fun i => ?_⟩
  refine hlive.live (.inl ⟨hdone.sync, hdone.writes⟩) i ?_ fun area _ harea => ?_
  · rw [hdone.offset]
    exact i.isLt
  · rw [hdone.session] at harea
    cases harea

/-- A write that finds the channel locked, and another session before the callback. -/
theorem sram_no_stranded_sample : SramKept (sramSystem.run sramZero
    [.lock .extended, .modify 40 7, .unlock true (.locked true), .lock .base, .modify 18 3, .unlock true .unselected]) := by
  have hl : sramSystem.Legal sramZero [.lock .extended, .modify 40 7, .unlock true (.locked true), .lock .base, .modify 18 3,
    .unlock true .unselected] := by decide +kernel
  exact (sram_no_stranded hl).1.mp (by decide +kernel) _ (List.prefix_rfl)

/-- The device is not selected: whatever happens later, the byte is not written. -/
theorem sram_write_stranded : ∃ es, sramSystem.Legal sramZero es ∧ let s := sramSystem.run sramZero es
    s.offset < 64 ∧ s.device ≠ s.srambuf ∧ s.sync = false ∧ s.queued = 0 ∧ s.writes = [] ∧ ¬ SramKept s ∧
      ∀ es', sramSystem.Legal s es' → ¬ SramDone (sramSystem.run s es') := by
  have hlost : SramLost (sramSystem.run sramZero [.lock .extended, .modify 40 7, .unlock true .unselected, .back 0]) :=
    ⟨by decide +kernel, by decide +kernel, by decide +kernel⟩
  refine ⟨[.lock .extended, .modify 40 7, .unlock true .unselected, .back 0], by decide +kernel, by decide +kernel, fun he => ?_,
    by decide +kernel, by decide +kernel, by decide +kernel, hlost.not_kept, fun es' hl => (hlost.run hl).not_done⟩
  have he := congrFun he 40
  revert he
  decide +kernel

end Libogc
