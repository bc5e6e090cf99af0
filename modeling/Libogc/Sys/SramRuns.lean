import Libogc.Sys.Sram
/-!
# SramRuns — the device below `offset`, and the checksums

There is at most one activation of `__sram_write` or callback waiting to become one: an unlock writes only while `sync` is set, and what
it leaves behind clears it.  So a write that failed outright is never made good, and nothing needs to be known of the device after it.
-/
namespace Libogc

open Runs

/-! ## The checksums -/

variable {b b' : SramBuf} {hi lo : Fin 64}

theorem summed_congr (h : ∀ i : Fin 64, 12 ≤ i.val → i.val < 20 → b' i = b i) : b'.summed = b.summed := by
  simp only [SramBuf.summed, SramBuf.half]
  rw [h 12 (by decide) (by decide), h 13 (by decide) (by decide), h 14 (by decide) (by decide), h 15 (by decide) (by decide),
    h 16 (by decide) (by decide), h 17 (by decide) (by decide), h 18 (by decide) (by decide), h 19 (by decide) (by decide)]

theorem sysCheckSram_iff :
    sysCheckSram b = true ↔ b.checksum = (buildchecksum b).1 ∧ b.checksumInv = (buildchecksum b).2 := decide_eq_true_iff

theorem buildchecksum_congr (h : ∀ i : Fin 64, 12 ≤ i.val → i.val < 20 → b' i = b i) : buildchecksum b' = buildchecksum b := by
  unfold buildchecksum
  rw [summed_congr h]

theorem sysCheckSram_congr (h : ∀ i : Fin 64, i.val < 20 → b' i = b i) : sysCheckSram b' = sysCheckSram b := by
  have hsum : buildchecksum b' = buildchecksum b := buildchecksum_congr fun i _ hi => h i hi
  have h1 : b'.checksum = b.checksum := by
    unfold SramBuf.checksum SramBuf.half
    rw [h 0 (by decide), h 1 (by decide)]
  have h2 : b'.checksumInv = b.checksumInv := by
    unfold SramBuf.checksumInv SramBuf.half
    rw [h 2 (by decide), h 3 (by decide)]
  rw [Bool.eq_iff_iff, sysCheckSram_iff, sysCheckSram_iff, hsum, h1, h2]

theorem setHalf_ne {i : Fin 64} (v : BitVec 16) (h1 : i ≠ hi) (h2 : i ≠ lo) : b.setHalf hi lo v i = b i := by
  unfold SramBuf.setHalf
  rw [Function.update_of_ne h2, Function.update_of_ne h1]

theorem half_setHalf (h : hi ≠ lo) (v : BitVec 16) : (b.setHalf hi lo v).half hi lo = v := by
  unfold SramBuf.half SramBuf.setHalf
  rw [Function.update_of_ne h, Function.update_self, Function.update_self]
  exact BitVec.extractLsb'_append_extractLsb' (w := 8)

theorem half_setHalf_ne {hi' lo' : Fin 64} (v : BitVec 16) (h1 : hi' ≠ hi) (h2 : hi' ≠ lo) (h3 : lo' ≠ hi) (h4 : lo' ≠ lo) :
    (b.setHalf hi lo v).half hi' lo' = b.half hi' lo' := by
  unfold SramBuf.half
  rw [setHalf_ne v h1 h2, setHalf_ne v h3 h4]

theorem sysCheckSram_setHalf (b : SramBuf) : sysCheckSram ((b.setHalf 0 1 (buildchecksum b).1).setHalf 2 3 (buildchecksum b).2) = true := by
  generalize hc : buildchecksum b = c
  have hsum : buildchecksum ((b.setHalf 0 1 c.1).setHalf 2 3 c.2) = c := by
    refine (buildchecksum_congr fun i hi _ => ?_).trans hc
    have h0 : ∀ k : Fin 64, k.val < 4 → i ≠ k := by
      rintro k hk rfl
      omega
    rw [setHalf_ne _ (h0 2 (by decide)) (h0 3 (by decide)), setHalf_ne _ (h0 0 (by decide)) (h0 1 (by decide))]
  rw [sysCheckSram_iff, hsum]
  constructor
  · exact (half_setHalf_ne _ (by decide) (by decide) (by decide) (by decide)).trans (half_setHalf (by decide) _)
  · exact half_setHalf (by decide) _

theorem sysCheckSram_sramSeal (b : SramBuf) : sysCheckSram (sramSeal b) = true := sysCheckSram_setHalf _

/-! ## The invariant -/

namespace SramSys

/-- What the session in progress has not touched. -/
def Clean (s : SramSys) (i : Fin 64) : Prop := ∀ area, s.modified = true → s.session = some area → i.val < area.loc

/-- The device has the first `n` bytes, but for what the session in progress is at. -/
def Agrees (s : SramSys) (n : Nat) : Prop := ∀ i : Fin 64, i.val < n → s.Clean i → s.device i = s.srambuf i

end SramSys

structure SramInv (s : SramSys) : Prop where
  one : s.queued + s.writes.length ≤ 1
  quiet : s.sync = true → s.queued = 0 ∧ ∀ w ∈ s.writes, w.deferred = false
  direct : ∀ w ∈ s.writes, w.deferred = false → s.session = none ∧ s.locked = true
  session : s.session ≠ none → s.locked = true
  modified : s.modified = true → s.session ≠ none
  live : s.sync = true ∧ s.writes = [] ∨ s.queued ≠ 0 → s.Agrees s.offset
  written : ∀ w ∈ s.writes, w.ret = true → s.Agrees 64
  check : s.based = true → ¬ (s.modified = true ∧ s.session = some .base) → sysCheckSram s.srambuf = true

theorem sramSubmit_keeps (t : SramSys) (area : SramArea) : (sramSubmit t area).sync = t.sync ∧ (sramSubmit t area).writes = t.writes ∧
    (sramSubmit t area).queued = t.queued ∧ (sramSubmit t area).session = t.session ∧ (sramSubmit t area).locked = t.locked := by
  cases area <;> exact ⟨rfl, rfl, rfl, rfl, rfl⟩

section Inv
variable {s : SramSys}

variable {area : SramArea}

theorem sramNext_unlock (h : s.session = some area) (write : Bool) (exi : SramExi) :
    sramNext s (.unlock write exi) = unlocksram s area write exi := by
  simp only [sramNext, h]

theorem sramNext_back {i : Nat} {w : SramWrite} (h : s.writes[i]? = some w) :
    sramNext s (.back i) = sramReturn { s with writes := s.writes.eraseIdx i } w := by
  simp only [sramNext, h]

theorem SramInv.lock (h : SramInv s) (area : SramArea) : SramInv (locksram s area) := by
  unfold locksram
  split
  · exact h
  · next hl =>
    have hnone : s.session = none := by
      by_contra hs
      exact hl (h.session hs)
    have hmod : s.modified = false := by
      cases hm : s.modified with
      | false => rfl
      | true => exact absurd hnone (h.modified hm)
    have hag : ∀ n, s.Agrees n → SramSys.Agrees { s with locked := true, session := some area } n := by
      intro n hn i hi _
      exact hn i hi fun a hm => absurd hm (by simp [hmod])
    refine ⟨h.one, h.quiet, fun w hw hd => absurd (h.direct w hw hd).2 hl, fun _ => rfl, fun _ => by simp,
      fun hlive => hag _ (h.live hlive), fun w hw hr => hag _ (h.written w hw hr), fun hb _ => ?_⟩
    exact h.check hb fun e => by simp [hmod] at e

theorem SramInv.modify (h : SramInv s) {i : Fin 64} (hs : s.session = some area) (hi : area.has i = true) (v : BitVec 8) :
    SramInv { s with srambuf := Function.update s.srambuf i v, modified := true } := by
  have hloc : area.loc ≤ i.val := by
    cases area with
    | base => exact Nat.zero_le _
    | extended => exact of_decide_eq_true hi
  have hag : ∀ n, s.Agrees n → SramSys.Agrees { s with srambuf := Function.update s.srambuf i v, modified := true } n := by
    intro n hn j hj hclean
    have hlt : j.val < area.loc := hclean area rfl hs
    have hne : j ≠ i := by
      rintro rfl
      omega
    show s.device j = Function.update s.srambuf i v j
    rw [Function.update_of_ne hne]
    apply hn j hj
    intro a _ ha
    rw [hs] at ha
    cases ha
    exact hlt
  refine ⟨h.one, h.quiet, h.direct, h.session, fun _ => by simp [hs], fun hl => hag _ (h.live hl),
    fun w hw hr => hag _ (h.written w hw hr), fun hb hne => ?_⟩
  -- a session on the base area is exempt; the extended one is not read
  cases area with
  | base => exact absurd ⟨rfl, hs⟩ hne
  | extended =>
    have hsame : sysCheckSram (Function.update s.srambuf i v) = sysCheckSram s.srambuf := by
      apply sysCheckSram_congr
      intro j hj
      apply Function.update_of_ne
      rintro rfl
      exact absurd hloc (Nat.not_le_of_lt hj)
    show sysCheckSram (Function.update s.srambuf i v) = true
    rw [hsame]
    exact h.check hb (by simp [hs])

/-- **A write** by the only activation there is, from where the device begins to differ. -/
theorem SramInv.write (h : SramInv s) (exi : SramExi) {deferred : Bool} (hq : s.queued = 0) (hw : s.writes = [])
    (hag : s.Agrees s.offset) (hd : deferred = true → s.sync = false) (hu : deferred = false → s.session = none ∧ s.locked = true) :
    SramInv (sramWrite s deferred exi) := by
  have hsync : ∀ w : SramWrite, w.deferred = deferred → s.sync = true → w.deferred = false := by
    intro w hwd hs
    cases deferred with
    | false => exact hwd
    | true => exact absurd (hd rfl) (by simp [hs])
  cases exi with
  | locked node =>
    refine ⟨?_, (fun hs => by cases hs), fun w hm => ?_, fun hs => ?_, h.modified, fun _ => hag, fun w hm => ?_, h.check⟩
    · simp only [sramWrite, sramReturn, hq, hw, List.length_nil]
      split <;> omega
    · rw [show (sramWrite s deferred (.locked node)).writes = [] from hw] at hm
      cases hm
    · cases deferred with
      | true => exact h.session hs
      | false => exact absurd (hu rfl).1 hs
    · rw [show (sramWrite s deferred (.locked node)).writes = [] from hw] at hm
      cases hm
  | unselected =>
    refine ⟨?_, fun hs => ⟨hq, ?_⟩, ?_, h.session, h.modified, fun hl => ?_, ?_, h.check⟩
    · simp [sramWrite, hq, hw]
    · simp only [sramWrite, hw, List.nil_append, List.mem_singleton]
      rintro w rfl
      exact hsync _ rfl hs
    · simp only [sramWrite, hw, List.nil_append, List.mem_singleton]
      rintro w rfl hwd
      exact hu hwd
    · simp [sramWrite, hq] at hl
    · simp only [sramWrite, hw, List.nil_append, List.mem_singleton]
      rintro w rfl hr
      cases hr
  | sent cmd data deselect garbage =>
    refine ⟨?_, fun hs => ⟨hq, ?_⟩, ?_, h.session, h.modified, fun hl => ?_, ?_, h.check⟩
    · simp [sramWrite, hq, hw]
    · simp only [sramWrite, hw, List.nil_append, List.mem_singleton]
      rintro w rfl
      exact hsync _ rfl hs
    · simp only [sramWrite, hw, List.nil_append, List.mem_singleton]
      rintro w rfl hwd
      exact hu hwd
    · simp [sramWrite, hq] at hl
    · simp only [sramWrite, hw, List.nil_append, List.mem_singleton]
      rintro w rfl hr i _ hclean
      obtain ⟨hsent, -⟩ := Bool.and_eq_true_iff.1 hr
      dsimp only
      rw [if_pos hsent]
      unfold sramOverwrite
      split
      · rfl
      · next hlt => exact hag i (Nat.lt_of_not_le hlt) hclean

/-- **A session hands over what it wrote**: the device has what lies below the area and below what was handed over before. -/
theorem SramInv.submit (h : SramInv s) (hs : s.session = some area) (hw : ∀ w ∈ s.writes, w.ret = false) :
    SramInv (sramSubmit { s with session := none, modified := false } area) := by
  have hdirect : ∀ w ∈ s.writes, w.deferred ≠ false := by
    intro w hm hd
    rw [(h.direct w hm hd).1] at hs
    cases hs
  have hwrite : ∀ {P : Prop}, ∀ w ∈ s.writes, w.ret = true → P := by
    intro P w hm hr
    rw [hw w hm] at hr
    cases hr
  cases area with
  | base =>
    refine ⟨h.one, h.quiet, fun w hm hd => absurd hd (hdirect w hm), fun e => absurd rfl e, (fun e => by cases e),
      fun _ i hi => ?_, hwrite, fun _ _ => sysCheckSram_sramSeal _⟩
    simp [sramSubmit] at hi
  | extended =>
    refine ⟨h.one, h.quiet, fun w hm hd => absurd hd (hdirect w hm), fun e => absurd rfl e, (fun e => by cases e),
      fun hl i hi _ => ?_, hwrite, fun hb _ => h.check hb (by simp [hs])⟩
    have hi' : i.val < min 20 s.offset := hi
    apply h.live hl i (by omega)
    intro a _ ha
    rw [hs] at ha
    cases ha
    exact Nat.lt_of_lt_of_le hi' (Nat.min_le_left ..)

theorem SramInv.release (h : SramInv s) (hd : ∀ w ∈ s.writes, w.deferred = true) (hs : s.session = none) :
    SramInv { s with locked := false } := by
  refine ⟨h.one, h.quiet, fun w hm hd' => ?_, fun e => absurd hs e, h.modified, h.live, h.written, h.check⟩
  rw [hd w hm] at hd'
  cases hd'

theorem SramInv.unlock (h : SramInv s) (hs : s.session = some area) {write : Bool} (exi : SramExi)
    (hm : (write || !s.modified) = true) (hq : write = true → ∀ w ∈ s.writes, w.deferred = true → w.ret = false) :
    SramInv (unlocksram s area write exi) := by
  have hdef : ∀ w ∈ s.writes, w.deferred = true := by
    intro w hw
    cases hd : w.deferred with
    | true => rfl
    | false =>
      rw [(h.direct w hw hd).1] at hs
      cases hs
  unfold unlocksram
  cases write with
  | false =>
    have hmod : s.modified = false := by simpa using hm
    have hag : ∀ n, s.Agrees n → SramSys.Agrees { s with session := none, modified := false, locked := false } n := by
      intro n hn i hi _
      apply hn i hi
      intro _ e
      rw [hmod] at e
      cases e
    refine ⟨h.one, h.quiet, fun w hw hd => ?_, fun e => absurd rfl e, (fun e => by cases e), fun hl => hag _ (h.live hl),
      fun w hw hr => hag _ (h.written w hw hr), fun hb _ => h.check hb (by simp [hmod])⟩
    have hd' : w.deferred = false := hd
    rw [hdef w hw] at hd'
    cases hd'
  | true =>
    have hsub := h.submit hs fun w hw => hq rfl w hw (hdef w hw)
    obtain ⟨k1, k2, k3, k4, k5⟩ := sramSubmit_keeps { s with session := none, modified := false } area
    rw [if_pos rfl]
    dsimp only
    split
    · next hsync =>
      have hold : s.sync = true := k1.symm.trans hsync
      have hwr : s.writes = [] := by
        rw [List.eq_nil_iff_forall_not_mem]
        intro w hw
        have h1 := (h.quiet hold).2 w hw
        rw [hdef w hw] at h1
        cases h1
      apply hsub.write
      · exact k3.trans (h.quiet hold).1
      · exact k2.trans hwr
      · exact hsub.live (.inl ⟨hsync, k2.trans hwr⟩)
      · exact fun e => by cases e
      · exact fun _ => ⟨k4, k5.trans (h.session (by simp [hs]))⟩
    · apply hsub.release
      · rw [k2]
        exact hdef
      · exact k4

theorem SramInv.callback (h : SramInv s) (hq : 0 < s.queued) (exi : SramExi) :
    SramInv (sramWrite { s with queued := s.queued - 1 } true exi) := by
  have hone := h.one
  have hwr : s.writes = [] := by
    rw [← List.length_eq_zero_iff]
    omega
  have hsync : s.sync = false := by
    cases hs : s.sync with
    | false => rfl
    | true => exact absurd (h.quiet hs).1 (by omega)
  have hag : s.Agrees s.offset := h.live (.inr (by omega))
  have hq0 : s.queued - 1 = 0 := by omega
  have hs : SramInv { s with queued := s.queued - 1 } := by
    refine ⟨?_, fun e => ?_, h.direct, h.session, h.modified, fun _ => hag, h.written, h.check⟩
    · show s.queued - 1 + s.writes.length ≤ 1
      omega
    · rw [show ({ s with queued := s.queued - 1 } : SramSys).sync = false from hsync] at e
      cases e
  exact hs.write exi hq0 hwr hag (fun _ => hsync) fun e => by cases e

theorem SramInv.back (h : SramInv s) {w : SramWrite} {i : Nat} (hi : s.writes[i]? = some w) :
    SramInv (sramReturn { s with writes := s.writes.eraseIdx i } w) := by
  obtain ⟨hlt, hget⟩ := List.getElem?_eq_some_iff.1 hi
  have hone := h.one
  obtain ⟨v, hv⟩ : ∃ v, s.writes = [v] := List.length_eq_one_iff.1 (by omega)
  have hw : s.writes = [w] := by
    rw [hv] at hlt
    have h0 : i = 0 := by simpa using hlt
    rw [hv, h0] at hi
    rw [hv, Option.some.inj hi]
  have h0 : i = 0 := by
    rw [hw] at hlt
    simpa using hlt
  have hq : s.queued = 0 := by
    rw [hw, List.length_singleton] at hone
    omega
  have hmem : w ∈ s.writes := hw ▸ List.mem_singleton_self w
  have hnil : s.writes.eraseIdx i = [] := by
    rw [hw, h0]
    rfl
  rw [hnil]
  refine ⟨?_, fun _ => ⟨hq, (fun w hw => by cases hw)⟩, (fun w hw => by cases hw), fun hs => ?_, h.modified, fun hl => ?_,
    (fun w hw => by cases hw), h.check⟩
  · show s.queued + 0 ≤ 1
    omega
  · show (if w.deferred then s.locked else false) = true
    cases hd : w.deferred with
    | true => exact h.session hs
    | false => exact absurd (h.direct w hmem hd).1 hs
  · have hr : w.ret = true := by
      rcases hl with ⟨hr, -⟩ | hl
      · exact hr
      · exact absurd hq hl
    show SramSys.Agrees _ (if w.ret then 64 else s.offset)
    rw [if_pos hr]
    exact h.written w hmem hr

/-! ## Steps and runs -/

theorem SramInv.step (h : SramInv s) {e : SramEvent} (he : (sramSystem.restrict sramQuiet).enabled s e) : SramInv (sramNext s e) := by
  obtain ⟨hg, hq⟩ := he
  cases e with
  | lock area => exact h.lock area
  | modify i v =>
    cases hs : s.session with
    | none =>
      have hg' : s.session.any (·.has i) = true := hg
      rw [hs] at hg'
      cases hg'
    | some area =>
      have hg' : s.session.any (·.has i) = true := hg
      rw [hs] at hg'
      exact h.modify hs hg' v
  | unlock write exi =>
    obtain ⟨hs, hm⟩ := Bool.and_eq_true_iff.1 hg
    obtain ⟨area, hs⟩ := Option.isSome_iff_exists.1 hs
    rw [sramNext_unlock hs]
    exact h.unlock hs exi hm hq
  | callback exi => exact h.callback (of_decide_eq_true hg) exi
  | back i =>
    have hlt : i < s.writes.length := of_decide_eq_true hg
    rw [sramNext_back (List.getElem?_eq_getElem hlt)]
    exact h.back (List.getElem?_eq_getElem hlt)

theorem sramStart_inv (srambuf device : SramBuf) (read : Bool) : SramInv (sramStart srambuf device read) := by
  refine ⟨Nat.zero_le _, fun _ => ⟨rfl, (fun w hw => by cases hw)⟩, (fun w hw => by cases hw), fun e => absurd rfl e,
    (fun e => by cases e), fun hl i _ _ => ?_, (fun w hw => by cases hw), (fun e => by cases e)⟩
  have hr : read = true := by simpa [sramStart] using hl
  simp [sramStart, hr]

/-- `offset` is below 64 only while something is to be written. -/
def SramFull (s : SramSys) : Prop := s.sync = true → s.writes = [] → s.offset = 64

theorem sramReturn_full (s : SramSys) (w : SramWrite) : SramFull (sramReturn s w) := by
  intro hs _
  have hr : w.ret = true := hs
  show (if w.ret then 64 else s.offset) = 64
  rw [if_pos hr]

theorem sramWrite_full (s : SramSys) (deferred : Bool) (exi : SramExi) : SramFull (sramWrite s deferred exi) := by
  cases exi with
  | locked node => apply sramReturn_full
  | unselected => exact fun _ hw => absurd hw (by simp [sramWrite])
  | sent cmd data deselect garbage => exact fun _ hw => absurd hw (by simp [sramWrite])

theorem sramNext_full (h : SramFull s) (e : SramEvent) : SramFull (sramNext s e) := by
  cases e with
  | lock area =>
    show SramFull (locksram s area)
    unfold locksram
    split <;> exact h
  | modify i v => exact h
  | unlock write exi =>
    cases hs : s.session with
    | none =>
      have hnext : sramNext s (.unlock write exi) = s := by simp only [sramNext, hs]
      rw [hnext]
      exact h
    | some area =>
      rw [sramNext_unlock hs]
      unfold unlocksram
      cases write with
      | false => exact h
      | true =>
        rw [if_pos rfl]
        dsimp only
        split
        · apply sramWrite_full
        · next hsync => exact fun hs' _ => absurd hs' hsync
  | callback exi => apply sramWrite_full
  | back i =>
    cases hw : s.writes[i]? with
    | none =>
      have hnext : sramNext s (.back i) = s := by simp only [sramNext, hw]
      rw [hnext]
      exact h
    | some w =>
      rw [sramNext_back hw]
      apply sramReturn_full

end Inv

/-- **What the copy is good for** while no session is at it: in sync, it is what the device has; and it passes the check once a session
has written to the base area. -/
structure SramSound (s : SramSys) : Prop where
  sync : s.locked = false → s.sync = true → s.device = s.srambuf
  check : s.locked = false → s.based = true → sysCheckSram s.srambuf = true

theorem SramInv.sound {s : SramSys} (h : SramInv s) (hf : SramFull s) : SramSound s := by
  have hsession : s.locked = false → s.session = none := by
    intro hl
    by_contra hs
    rw [h.session hs] at hl
    cases hl
  refine ⟨fun hl hs => ?_, fun hl hb => h.check hb fun e => ?_⟩
  · have hw : s.writes = [] := by
      rw [List.eq_nil_iff_forall_not_mem]
      intro w hw
      rw [(h.direct w hw ((h.quiet hs).2 w hw)).2] at hl
      cases hl
    funext i
    refine h.live (.inl ⟨hs, hw⟩) i ?_ fun a _ ha => ?_
    · rw [hf hs hw]
      exact i.isLt
    · rw [hsession hl] at ha
      cases ha
  · rw [hsession hl] at e
    cases e.2

/-- **The SRAM copy**, on every run in which no session writes while a deferred write that went well is in its `EXI_Unlock`. -/
theorem sram_coherence {srambuf device : SramBuf} {read : Bool} {es : List SramEvent}
    (hl : (sramSystem.restrict sramQuiet).Legal (sramStart srambuf device read) es) :
    SramSound (sramSystem.run (sramStart srambuf device read) es) := by
  obtain ⟨h, hf⟩ := hl.invariant (I := fun s => SramInv s ∧ SramFull s)
    (fun s e hs he => ⟨hs.1.step he, sramNext_full hs.2 e⟩) ⟨sramStart_inv srambuf device read, fun _ _ => rfl⟩
  exact h.sound hf

/-- A device of zeros, read well. -/
def sramZero : SramSys := sramStart (fun _ => 0) (fun _ => 0) true

/-- A write that is deferred, another session before its callback, and one while it is written. -/
theorem sram_coherence_sample : SramSound (sramSystem.run sramZero
    [.lock .extended, .modify 40 7, .unlock true (.locked true), .lock .base, .modify 18 3, .unlock true .unselected,
      .callback (.sent true true true fun _ => 0), .lock .extended, .modify 50 1, .back 0, .unlock true (.sent true true true fun _ => 0),
      .back 0]) := by
  apply sram_coherence
  decide +kernel

/-- A thread that the deferred write's own unlock wakes writes the language; the deferred write then marks all as written. -/
theorem sram_deferred_write_loses : ∃ es, sramSystem.Legal sramZero es ∧ ¬ SramSound (sramSystem.run sramZero es) := by
  refine ⟨[.lock .extended, .modify 40 7, .unlock true (.locked true), .callback (.sent true true true fun _ => 0), .lock .base,
    .modify 18 3, .unlock true .unselected, .back 0], by decide +kernel, fun h => ?_⟩
  have hs := congrFun (h.sync (by decide +kernel) (by decide +kernel)) 18
  revert hs
  decide +kernel

end Libogc
