import Libogc.Lib.Runs
import Libogc.Usb.UsbStorage
/-!
# UsbMessages — a message, its reply and its timeout

`__USB_BlkMsgTimeout` and `__USB_CtrlMsgTimeout` of `usbstorage.c`.  A call leaves `USBSTORAGE_PROCESSING` in the handle, sends its message,
sets the handle's alarm, and waits until the word has changed.  The callback of a reply and the handler of the alarm write to that word
without knowing which call waits.

The calls are serialised by the handle's lock.  Replies and the alarm come at any time; which of them wrote the word last is kept beside
it.
-/
namespace Libogc

open Runs

def USBSTORAGE_PROCESSING : Int := -10010

/-- `__USB_BlkMsgTimeout` clears the endpoint's halt after an error. -/
inductive UsbMsgCall where
  | blk (bEndpoint : Nat)
  | ctrl
  deriving DecidableEq, Repr

/-- Where the call with the message `m` is: before the message is sent, before the alarm is set, or in the loop. -/
inductive UsbMsgPhase where
  | idle
  | sending (m : Nat) (call : UsbMsgCall)
  | sent (m : Nat) (call : UsbMsgCall)
  | waiting (m : Nat) (call : UsbMsgCall)
  deriving DecidableEq, Repr

def UsbMsgPhase.msg : UsbMsgPhase → Option Nat
  | .idle => none
  | .sending m _ | .sent m _ | .waiting m _ => some m

/-- Where a result comes from; of an alarm, whether its message had no reply by then. -/
inductive UsbOrigin where
  | none
  | send (m : Nat)
  | reply (m : Nat)
  | alarm (m : Nat) (first : Bool)
  deriving DecidableEq, Repr

structure UsbReturn where
  msg : Nat
  retval : Int
  origin : UsbOrigin
  deriving DecidableEq, Repr

/-- The handle's word and alarm, with the message whose call set it; the messages without a reply, the replies there were, and what the
calls returned. -/
structure UsbMessages where
  retval : Int
  alarm : Option Nat
  phase : UsbMsgPhase
  count : Nat
  pending : Nat → Bool
  replied : Nat → Option Int
  origin : UsbOrigin
  halts : List Nat
  returned : List UsbReturn

inductive UsbMsgEvent where
  | start (call : UsbMsgCall)
  | send (retval : Int)
  | settimeout
  | check
  | reply (m : Nat) (retval : Int)
  | alarm
  deriving DecidableEq, Repr

/-- The return from the loop. -/
def UsbMessages.ret (s : UsbMessages) (m : Nat) (call : UsbMsgCall) : UsbMessages :=
  { s with
    phase := .idle
    halts := match call with
      | .blk bEndpoint => if s.retval < 0 then s.halts ++ [bEndpoint] else s.halts
      | .ctrl => s.halts
    returned := s.returned ++ [⟨m, s.retval, s.origin⟩] }

def usbMsgNext (s : UsbMessages) : UsbMsgEvent → UsbMessages
  | .start call => { s with retval := USBSTORAGE_PROCESSING, origin := .none, phase := .sending s.count call, count := s.count + 1 }
  | .send retval =>
    match s.phase with
    | .sending m call =>
      if retval < 0 then { s with phase := .idle, returned := s.returned ++ [⟨m, retval, .send m⟩] }
      else { s with phase := .sent m call, pending := Function.update s.pending m true }
    | _ => s
  | .settimeout =>
    match s.phase with
    | .sent m call => { s with phase := .waiting m call, alarm := some m }
    | _ => s
  | .check =>
    match s.phase with
    | .waiting m call => if s.retval ≠ USBSTORAGE_PROCESSING then s.ret m call else s
    | _ => s
  | .reply m retval =>
    -- `__usb_blkmsg_cb` cancels the alarm, whichever call has set it
    { s with
      retval := retval
      alarm := none
      origin := .reply m
      pending := Function.update s.pending m false
      replied := Function.update s.replied m (some retval) }
  | .alarm =>
    match s.alarm with
    | some m => { s with retval := USBSTORAGE_ETIMEDOUT, alarm := none, origin := .alarm m (s.replied m).isNone }
    | none => s

def usbMsgEnabled (s : UsbMessages) : UsbMsgEvent → Bool
  | .start _ => s.phase = .idle
  | .send _ => match s.phase with | .sending .. => true | _ => false
  | .settimeout => match s.phase with | .sent .. => true | _ => false
  | .check => match s.phase with | .waiting .. => true | _ => false
  | .reply m _ => s.pending m
  | .alarm => s.alarm.isSome

/-- Every order of the calls, the replies and the alarms. -/
def usbMsgSystem : System UsbMessages UsbMsgEvent where
  enabled s e := usbMsgEnabled s e = true
  next := usbMsgNext

instance (s : UsbMessages) (e : UsbMsgEvent) : Decidable (usbMsgSystem.enabled s e) := inferInstanceAs (Decidable (_ = _))

/-- A handle that was opened. -/
def usbMsgStart : UsbMessages where
  retval := 0
  alarm := none
  phase := .idle
  count := 0
  pending _ := false
  replied _ := none
  origin := .none
  halts := []
  returned := []

/-- **A result of the message's own**: the error of its sending, its reply, or its alarm before there was a reply. -/
def UsbReturn.Own (replied : Nat → Option Int) (r : UsbReturn) : Prop :=
  match r.origin with
  | .none => False
  | .send m => m = r.msg ∧ r.retval < 0
  | .reply m => m = r.msg ∧ replied m = some r.retval
  | .alarm m first => m = r.msg ∧ first = true ∧ r.retval = USBSTORAGE_ETIMEDOUT

/-- Each call that has returned has a result of its message's own. -/
def UsbMessages.matched (s : UsbMessages) : Prop := ∀ r ∈ s.returned, r.Own s.replied

/-- **In time**: while a call is under way there comes no reply to another message, and no alarm of another's or after the reply; and an
alarm is not set while it is armed, which would link it twice. -/
def usbMsgTimely (s : UsbMessages) : UsbMsgEvent → Prop
  | .reply m _ => s.phase.msg = none ∨ s.phase.msg = some m
  | .alarm => s.phase.msg = none ∨ (s.phase.msg = s.alarm ∧ s.alarm.bind s.replied = none)
  | .settimeout => s.alarm = none
  | _ => True

instance (s : UsbMessages) (e : UsbMsgEvent) : Decidable (usbMsgTimely s e) :=
  match e with
  | .reply _ _ => inferInstanceAs (Decidable (_ ∨ _))
  | .alarm => inferInstanceAs (Decidable (_ ∨ _))
  | .settimeout => inferInstanceAs (Decidable (_ = _))
  | .start _ | .send _ | .check => inferInstanceAs (Decidable True)

/-! ## The calls -/

/-- A message that was not sent. -/
def UsbMessages.unsent (s : UsbMessages) (m : Nat) : Prop := s.pending m = false ∧ s.replied m = none ∧ s.alarm ≠ some m

/-- What the word holds while a call is under way. -/
def UsbMessages.calling (s : UsbMessages) : Prop :=
  match s.phase with
  | .idle => True
  | .sending m _ => s.unsent m ∧ s.retval = USBSTORAGE_PROCESSING
  | .sent m _ | .waiting m _ => s.retval = USBSTORAGE_PROCESSING ∨ UsbReturn.Own s.replied ⟨m, s.retval, s.origin⟩

structure UsbMsgInv (s : UsbMessages) : Prop where
  called : ∀ m, s.phase.msg = some m → m < s.count
  fresh : ∀ m, s.count ≤ m → s.unsent m
  unanswered : ∀ m, s.pending m = true → s.replied m = none
  calling : s.calling
  own : s.matched

section Inv
variable {s : UsbMessages}

/-- A reply to a message that had none leaves the results there are as they are. -/
theorem UsbReturn.Own.reply {replied : Nat → Option Int} {r : UsbReturn} (h : r.Own replied) {m : Nat} (hm : replied m = none)
    (retval : Int) : r.Own (Function.update replied m (some retval)) := by
  unfold UsbReturn.Own at h ⊢
  cases ho : r.origin with
  | none => rw [ho] at h; exact h
  | send m' => rw [ho] at h; exact h
  | alarm m' first => rw [ho] at h; exact h
  | reply m' =>
    rw [ho] at h
    obtain ⟨hmsg, hreplied⟩ : m' = r.msg ∧ replied m' = some r.retval := h
    have hne : m' ≠ m := by
      rintro rfl
      rw [hm] at hreplied
      cases hreplied
    refine ⟨hmsg, ?_⟩
    rw [Function.update_of_ne hne]
    exact hreplied

theorem usbMsgStart_inv : UsbMsgInv usbMsgStart where
  called _ hm := by cases hm
  fresh _ _ := ⟨rfl, rfl, (Option.some_ne_none _).symm⟩
  unanswered _ hm := by cases hm
  calling := trivial
  own _ hr := by cases hr

theorem UsbMsgInv.start (h : UsbMsgInv s) (call : UsbMsgCall) : UsbMsgInv (usbMsgNext s (.start call)) where
  called m hm := by
    obtain rfl : s.count = m := Option.some.inj hm
    exact Nat.lt_succ_self _
  fresh m hm := h.fresh m (Nat.le_of_succ_le hm)
  unanswered := h.unanswered
  calling := ⟨h.fresh _ (Nat.le_refl _), rfl⟩
  own := h.own

theorem UsbMsgInv.returns (h : UsbMsgInv s) {r : UsbReturn} (hown : r.Own s.replied) (halts : List Nat) :
    UsbMsgInv { s with phase := .idle, halts := halts, returned := s.returned ++ [r] } where
  called _ hm := by cases hm
  fresh := h.fresh
  unanswered := h.unanswered
  calling := trivial
  own r' hr' := by
    rcases List.mem_append.mp hr' with hr' | hr'
    · exact h.own r' hr'
    · rw [List.mem_singleton.mp hr']
      exact hown

theorem UsbMsgInv.send (h : UsbMsgInv s) (retval : Int) : UsbMsgInv (usbMsgNext s (.send retval)) := by
  have hcalled := h.called
  have hcalling := h.calling
  unfold UsbMessages.calling at hcalling
  unfold usbMsgNext
  cases hp : s.phase with
  | idle => exact h
  | sent m call => exact h
  | waiting m call => exact h
  | sending m call =>
    rw [hp] at hcalled hcalling
    obtain ⟨⟨hpending, hreplied, halarm⟩, hword⟩ := hcalling
    dsimp only
    split
    · rename_i hneg
      exact h.returns (r := ⟨m, retval, .send m⟩) ⟨rfl, hneg⟩ s.halts
    · have hlt : m < s.count := hcalled m rfl
      refine ⟨hcalled, fun m' hm' => ?_, fun m' hm' => ?_, .inl hword, h.own⟩
      · obtain ⟨h1, h2, h3⟩ := h.fresh m' hm'
        have hne : m' ≠ m := by
          rintro rfl
          exact absurd hm' (Nat.not_le.mpr hlt)
        exact ⟨(Function.update_of_ne hne _ _).trans h1, h2, h3⟩
      · by_cases he : m' = m
        · exact he ▸ hreplied
        · dsimp only at hm'
          rw [Function.update_of_ne he] at hm'
          exact h.unanswered m' hm'

theorem UsbMsgInv.settimeout (h : UsbMsgInv s) : UsbMsgInv (usbMsgNext s .settimeout) := by
  have hcalled := h.called
  have hcalling := h.calling
  unfold UsbMessages.calling at hcalling
  unfold usbMsgNext
  cases hp : s.phase with
  | idle => exact h
  | sending m call => exact h
  | waiting m call => exact h
  | sent m call =>
    rw [hp] at hcalled hcalling
    have hlt : m < s.count := hcalled m rfl
    refine ⟨hcalled, fun m' hm' => ?_, h.unanswered, hcalling, h.own⟩
    obtain ⟨h1, h2, -⟩ := h.fresh m' hm'
    refine ⟨h1, h2, fun he => ?_⟩
    obtain rfl := Option.some.inj he
    exact absurd hm' (Nat.not_le.mpr hlt)

theorem UsbMsgInv.check (h : UsbMsgInv s) : UsbMsgInv (usbMsgNext s .check) := by
  have hcalling := h.calling
  unfold UsbMessages.calling at hcalling
  unfold usbMsgNext
  cases hp : s.phase with
  | idle => exact h
  | sending m call => exact h
  | sent m call => exact h
  | waiting m call =>
    rw [hp] at hcalling
    dsimp only
    split
    · rename_i hword
      exact h.returns (hcalling.resolve_left hword) _
    · exact h

theorem UsbMsgInv.reply (h : UsbMsgInv s) {m : Nat} (hpending : s.pending m = true) (retval : Int)
    (htimely : s.phase.msg = none ∨ s.phase.msg = some m) : UsbMsgInv (usbMsgNext s (.reply m retval)) := by
  have hreplied := h.unanswered m hpending
  have hcalling := h.calling
  refine ⟨h.called, fun m' hm' => ?_, fun m' hm' => ?_, ?_, fun r hr => (h.own r hr).reply hreplied retval⟩
  · obtain ⟨h1, h2, -⟩ := h.fresh m' hm'
    have hne : m' ≠ m := by
      rintro rfl
      rw [h1] at hpending
      cases hpending
    exact ⟨(Function.update_of_ne hne _ _).trans h1, (Function.update_of_ne hne _ _).trans h2, (Option.some_ne_none _).symm⟩
  · have hm' : Function.update s.pending m false m' = true := hm'
    have hne : m' ≠ m := by
      rintro rfl
      rw [Function.update_self] at hm'
      cases hm'
    rw [Function.update_of_ne hne] at hm'
    exact (Function.update_of_ne hne _ _).trans (h.unanswered m' hm')
  · have hown : UsbReturn.Own (Function.update s.replied m (some retval)) ⟨m, retval, .reply m⟩ := ⟨rfl, Function.update_self ..⟩
    unfold UsbMessages.calling at hcalling
    show UsbMessages.calling { s with
      retval := retval, alarm := none, origin := .reply m, pending := Function.update s.pending m false,
      replied := Function.update s.replied m (some retval) }
    unfold UsbMessages.calling
    cases hp : s.phase with
    | idle => trivial
    | sending m' call =>
      -- the message that is being sent has no reply yet
      rw [hp] at hcalling htimely
      obtain rfl : m' = m := Option.some.inj (htimely.resolve_left (Option.some_ne_none _))
      rw [hcalling.1.1] at hpending
      cases hpending
    | sent m' call =>
      rw [hp] at htimely
      obtain rfl : m' = m := Option.some.inj (htimely.resolve_left (Option.some_ne_none _))
      exact .inr hown
    | waiting m' call =>
      rw [hp] at htimely
      obtain rfl : m' = m := Option.some.inj (htimely.resolve_left (Option.some_ne_none _))
      exact .inr hown

theorem UsbMsgInv.alarm (h : UsbMsgInv s) (htimely : s.phase.msg = none ∨ (s.phase.msg = s.alarm ∧ s.alarm.bind s.replied = none)) :
    UsbMsgInv (usbMsgNext s .alarm) := by
  have hcalling := h.calling
  unfold UsbMessages.calling at hcalling
  unfold usbMsgNext
  cases ha : s.alarm with
  | none => exact h
  | some m =>
    dsimp only
    refine ⟨h.called, fun m' hm' => ?_, h.unanswered, ?_, h.own⟩
    · obtain ⟨h1, h2, -⟩ := h.fresh m' hm'
      exact ⟨h1, h2, (Option.some_ne_none _).symm⟩
    · rw [ha] at htimely
      have hown : ∀ {m'}, s.phase.msg = some m' →
          UsbReturn.Own s.replied ⟨m', USBSTORAGE_ETIMEDOUT, .alarm m (s.replied m).isNone⟩ := by
        intro m' hm'
        rw [hm'] at htimely
        obtain ⟨hmsg, hnone⟩ := htimely.resolve_left (Option.some_ne_none _)
        exact ⟨(Option.some.inj hmsg).symm, Option.isNone_iff_eq_none.mpr hnone, rfl⟩
      unfold UsbMessages.calling
      cases hp : s.phase with
      | idle => trivial
      | sending m' call =>
        rw [hp] at hcalling htimely
        obtain ⟨hmsg, -⟩ := htimely.resolve_left (Option.some_ne_none _)
        exact absurd (ha.trans hmsg.symm) hcalling.1.2.2
      | sent m' call => exact .inr (hown (by rw [hp]; rfl))
      | waiting m' call => exact .inr (hown (by rw [hp]; rfl))

theorem UsbMsgInv.step (h : UsbMsgInv s) {e : UsbMsgEvent} (he : (usbMsgSystem.restrict usbMsgTimely).enabled s e) :
    UsbMsgInv (usbMsgNext s e) := by
  cases e with
  | start call => exact h.start call
  | send retval => exact h.send retval
  | settimeout => exact h.settimeout
  | check => exact h.check
  | reply m retval => exact h.reply he.1 retval he.2
  | alarm => exact h.alarm he.2

end Inv

/-- **Each call returns a result of its message's own**, in every run in which replies and alarms are in time. -/
theorem usb_msg_matched {es : List UsbMsgEvent} (hl : (usbMsgSystem.restrict usbMsgTimely).Legal usbMsgStart es) :
    (usbMsgSystem.run usbMsgStart es).matched :=
  (hl.invariant (I := UsbMsgInv) (fun _ _ h he => h.step he) usbMsgStart_inv).own

/-- A message that times out and is replied to between the calls, one that is replied to before its alarm is set, and one that is not sent. -/
def usbMsgSample : List UsbMsgEvent :=
  [.start (.blk 2), .send 0, .settimeout, .alarm, .check, .reply 0 13, .start .ctrl, .send 0, .reply 1 7, .settimeout, .check, .alarm,
    .start (.blk 2), .send (-4)]

theorem usb_msg_matched_sample : (usbMsgSystem.run usbMsgStart usbMsgSample).matched :=
  usb_msg_matched (by decide)

/-- The reply to a message that timed out becomes the result of the next one. -/
theorem usb_msg_late : ∃ es, usbMsgSystem.Legal usbMsgStart es ∧
    ¬ (usbMsgSystem.run usbMsgStart es).matched := by
  refine ⟨[.start (.blk 2), .send 0, .settimeout, .alarm, .check, .start (.blk 2), .send 0, .settimeout, .reply 0 13, .check],
    by decide, fun hall => ?_⟩
  obtain ⟨hmsg, -⟩ : (0 : Nat) = 1 ∧ _ := hall ⟨1, 13, .reply 0⟩ (by decide)
  exact absurd hmsg (by decide)

end Libogc
