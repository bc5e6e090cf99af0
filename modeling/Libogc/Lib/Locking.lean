import Libogc.Lib.Locks
import Libogc.Lib.Runs
/-!
# Locking — programs that share a lock

Threads run programs that take and release one lock and ask for something in between.  The lock is not recursive: a thread that takes it
twice has it once, and a release by a thread that does not have it does nothing.  A program is `Safe` if it has the lock whenever it asks;
with safe programs, in every order of their steps, whoever asks is the holder.
-/
namespace Locks

open Runs

/-- A program; what is answered decides how it goes on.  `test` looks at what the lock does not guard. -/
inductive Prog (R : Type) where
  | done
  | lock (k : Prog R)
  | unlock (k : Prog R)
  | ask (r : R) (k : Bool → Prog R)
  | test (k : Bool → Prog R)

/-- The lock is held, or not, at the beginning, and at every `ask`; at the end it is not. -/
def Prog.Safe {R : Type} (allowed : R → Bool → Prop) : Bool → Prog R → Prop
  | held, .done => held = false
  | _, .lock k => k.Safe allowed true
  | _, .unlock k => k.Safe allowed false
  | held, .ask r k => held = true ∧ ∀ answer, allowed r answer → (k answer).Safe allowed true
  | held, .test k => ∀ answer, (k answer).Safe allowed held

/-- A lock, and the call that each thread is in, with what it has still to do. -/
structure Users (T C R : Type) where
  lock : Lock T
  job : T → Option (C × Prog R)

inductive UserEvent (T C : Type) where
  | start (t : T) (c : C)
  | step (t : T) (answer : Bool) (next : Option T)
  deriving DecidableEq, Repr

variable {T C R : Type} [DecidableEq T]

namespace Users
variable (s : Users T C R) (t : T)

def goto (job : Option (C × Prog R)) : Users T C R := { s with job := Function.update s.job t job }

/-- The lock is taken, or waited for, unless there is none. -/
def take : Lock T :=
  if s.lock.gone then s.lock
  else
    match s.lock.holder with
    | none => s.lock.take t
    | some u => if u = t then s.lock else s.lock.set t .waiting

/-- The lock is released by its holder. -/
def release (next : Option T) : Lock T := if s.lock.holder = some t then s.lock.pass t next else s.lock

def step (answer : Bool) (next : Option T) : Users T C R :=
  match s.job t with
  | none => s
  | some (_, .done) => s.goto t none
  | some (c, .lock k) => { s.goto t (some (c, k)) with lock := s.take t }
  | some (c, .unlock k) => { s.goto t (some (c, k)) with lock := s.release t next }
  | some (c, .ask _ k) | some (c, .test k) => s.goto t (some (c, k answer))

def next (prog : C → Prog R) : UserEvent T C → Users T C R
  | .start t c => s.goto t (some (c, prog c))
  | .step t answer next => s.step t answer next

/-- A thread that does not wait goes on; `next` is who gets the lock if it is released, a thread that waits, if there is one. -/
def Enabled : UserEvent T C → Prop
  | .start t _ => (s.job t).isNone = true
  | .step t _ next =>
    s.lock.phase t ≠ .waiting ∧ (∀ u, next = some u → s.lock.phase u = .waiting) ∧ (next = none → s.lock.holder = some t → s.lock.Quiet)

/-- The thread asks for something. -/
def asks : Bool :=
  s.lock.phase t ≠ .waiting &&
    match s.job t with
    | some (_, .ask ..) => true
    | _ => false

/-- Only such answers come. -/
def Allowed (allowed : C → R → Bool → Prop) : UserEvent T C → Prop
  | .start .. => True
  | .step t answer _ =>
    match s.job t with
    | some (c, .ask r _) => allowed c r answer
    | _ => True

instance (allowed : C → R → Bool → Prop) [∀ c r answer, Decidable (allowed c r answer)] (e : UserEvent T C) :
    Decidable (s.Allowed allowed e) := by
  unfold Allowed
  split
  · infer_instance
  · split <;> infer_instance

instance [Fintype T] (e : UserEvent T C) : Decidable (s.Enabled e) :=
  match e with
  | .start .. => inferInstanceAs (Decidable (_ = _))
  | .step .. => inferInstanceAs (Decidable (_ ∧ (∀ _, _ → _) ∧ (_ → _ → ∀ _, _ ≠ _)))

end Users

/-- Every order of the steps of the threads. -/
def userSystem (prog : C → Prog R) : System (Users T C R) (UserEvent T C) where
  enabled := Users.Enabled
  next s := s.next prog

instance [Fintype T] (prog : C → Prog R) (s : Users T C R) (e : UserEvent T C) : Decidable ((userSystem prog).enabled s e) :=
  inferInstanceAs (Decidable (s.Enabled e))

/-- Nobody does anything; there may be no lock. -/
def userStart (gone : Bool) : Users T C R := ⟨⟨none, gone, fun _ => .out⟩, fun _ => none⟩

/-- Whether a thread has the lock, or will have it when it goes on. -/
def Phase.has : Phase → Bool
  | .out => false
  | .waiting | .inside => true

/-- **The discipline of the threads**: what each has still to do is safe from where it is. -/
structure Disciplined (allowed : C → R → Bool → Prop) (s : Users T C R) : Prop where
  kept : Kept s.lock
  gone : s.lock.gone = false
  idle : ∀ t, s.job t = none → s.lock.phase t = .out
  safe : ∀ t c p, s.job t = some (c, p) → p.Safe (allowed c) (s.lock.phase t).has

section Steps
variable {s : Users T C R} {t : T} {allowed : C → R → Bool → Prop}

omit [DecidableEq T] in
theorem Disciplined.start : Disciplined allowed (userStart false : Users T C R) where
  kept :=
    { held := fun _ h => nomatch h
      owned := fun _ h => nomatch h
      waits := fun _ h => nomatch h
      gone := fun h => nomatch h }
  gone := rfl
  idle _ _ := rfl
  safe _ _ _ h := by cases h

theorem Phase.has_eq_false {p : Phase} (h : p.has = false) : p = .out := by
  cases p with
  | out => rfl
  | waiting | inside => cases h

theorem Disciplined.goto (h : Disciplined allowed s) {l : Lock T} (hkept : Kept l) (hgone : l.gone = false)
    (hothers : ∀ u, u ≠ t → (l.phase u).has = (s.lock.phase u).has) {job : Option (C × Prog R)}
    (hidle : job = none → l.phase t = .out) (hsafe : ∀ c p, job = some (c, p) → p.Safe (allowed c) (l.phase t).has) :
    Disciplined allowed { s.goto t job with lock := l } where
  kept := hkept
  gone := hgone
  idle u hu := by
    have hu : Function.update s.job t job u = none := hu
    by_cases hut : u = t
    · subst hut
      rw [Function.update_self] at hu
      exact hidle hu
    · rw [Function.update_of_ne hut] at hu
      refine Phase.has_eq_false ?_
      rw [hothers u hut, h.idle u hu]
      rfl
  safe u c p hu := by
    have hu : Function.update s.job t job u = some (c, p) := hu
    by_cases hut : u = t
    · subst hut
      rw [Function.update_self] at hu
      exact hsafe c p hu
    · rw [Function.update_of_ne hut] at hu
      show p.Safe (allowed c) (l.phase u).has
      rw [hothers u hut]
      exact h.safe u c p hu

theorem Disciplined.take (h : Disciplined allowed s) (t : T) :
    Kept (s.take t) ∧ (s.take t).gone = false ∧ ((s.take t).phase t).has = true ∧ ∀ u, u ≠ t → (s.take t).phase u = s.lock.phase u := by
  unfold Users.take
  rw [if_neg (by rw [h.gone]; exact Bool.false_ne_true)]
  cases hh : s.lock.holder with
  | none =>
    refine ⟨h.kept.take hh h.gone, h.gone, ?_, fun u hu => s.lock.set_phase_ne .inside hu⟩
    have hin : (s.lock.take t).phase t = .inside := s.lock.set_phase t .inside
    rw [hin]
    rfl
  | some u =>
    dsimp only
    by_cases hut : u = t
    · subst hut
      rw [if_pos rfl, h.kept.held u hh]
      exact ⟨h.kept, h.gone, rfl, fun _ _ => rfl⟩
    · rw [if_neg hut, s.lock.set_phase]
      exact ⟨h.kept.wait hh hut, h.gone, rfl, fun v hv => s.lock.set_phase_ne .waiting hv⟩

theorem Disciplined.release (h : Disciplined allowed s) (hw : s.lock.phase t ≠ .waiting) {next : Option T}
    (hsome : ∀ u, next = some u → s.lock.phase u = .waiting) (hnone : next = none → s.lock.holder = some t → s.lock.Quiet) :
    Kept (s.release t next) ∧ (s.release t next).gone = false ∧ (s.release t next).phase t = .out ∧
      ∀ u, u ≠ t → ((s.release t next).phase u).has = (s.lock.phase u).has := by
  unfold Users.release
  by_cases hh : s.lock.holder = some t
  · rw [if_pos hh]
    refine ⟨h.kept.pass hh fun hn => hnone hn hh, ?_, ?_, fun u hu => ?_⟩
    · cases next <;> exact h.gone
    · cases next with
      | none => exact s.lock.set_phase t .out
      | some v =>
        have hvt : t ≠ v := by
          rintro rfl
          exact hw (hsome t rfl)
        exact ((s.lock.set t .out).set_phase_ne .inside hvt).trans (s.lock.set_phase t .out)
    · cases next with
      | none => exact congrArg Phase.has (s.lock.set_phase_ne .out hu)
      | some v =>
        by_cases huv : u = v
        · subst huv
          have hin : (s.lock.pass t (some u)).phase u = .inside := (s.lock.set t .out).set_phase u .inside
          rw [hin, hsome u rfl]
          rfl
        · exact congrArg Phase.has (((s.lock.set t .out).set_phase_ne .inside huv).trans (s.lock.set_phase_ne .out hu))
  · rw [if_neg hh]
    refine ⟨h.kept, h.gone, ?_, fun _ _ => rfl⟩
    cases hp : s.lock.phase t with
    | out => rfl
    | waiting => exact absurd hp hw
    | inside =>
      rcases h.kept.owned t hp with hown | hgone
      · exact absurd hown hh
      · exact absurd (hgone.symm.trans h.gone) (by decide)

theorem Disciplined.step (h : Disciplined allowed s) {prog : C → Prog R} (hprog : ∀ c, (prog c).Safe (allowed c) false)
    {e : UserEvent T C} (he : s.Enabled e) (hallowed : s.Allowed allowed e) : Disciplined allowed (s.next prog e) := by
  cases e with
  | start t c =>
    have hidle : s.lock.phase t = .out := h.idle t (Option.isNone_iff_eq_none.1 he)
    refine h.goto h.kept h.gone (fun _ _ => rfl) (fun hn => nomatch hn) fun c' p hp => ?_
    cases hp
    rw [hidle]
    exact hprog c
  | step t answer next =>
    obtain ⟨hw, hsome, hnone⟩ := he
    unfold Users.Allowed at hallowed
    unfold Users.next Users.step
    dsimp only at hallowed ⊢
    cases hjob : s.job t with
    | none => exact h
    | some job =>
      obtain ⟨c, p⟩ := job
      have hsafe := h.safe t c p hjob
      rw [hjob] at hallowed
      cases p with
      | done => exact h.goto h.kept h.gone (fun _ _ => rfl) (fun _ => Phase.has_eq_false hsafe) fun _ _ hp => nomatch hp
      | lock k =>
        obtain ⟨hkept, hgone, hhas, hothers⟩ := h.take t
        refine h.goto hkept hgone (fun u hu => congrArg Phase.has (hothers u hu)) (fun hn => nomatch hn) fun c' p hp => ?_
        cases hp
        rw [hhas]
        exact hsafe
      | unlock k =>
        obtain ⟨hkept, hgone, hout, hothers⟩ := h.release hw hsome hnone
        refine h.goto hkept hgone hothers (fun hn => nomatch hn) fun c' p hp => ?_
        cases hp
        rw [hout]
        exact hsafe
      | ask r k =>
        refine h.goto h.kept h.gone (fun _ _ => rfl) (fun hn => nomatch hn) fun c' p hp => ?_
        cases hp
        rw [hsafe.1]
        exact hsafe.2 answer hallowed
      | test k =>
        refine h.goto h.kept h.gone (fun _ _ => rfl) (fun hn => nomatch hn) fun c' p hp => ?_
        cases hp
        exact hsafe answer

omit [DecidableEq T] in
theorem Disciplined.asks (h : Disciplined allowed s) (ht : s.asks t = true) : s.lock.holder = some t := by
  unfold Users.asks at ht
  obtain ⟨hw, hask⟩ := Bool.and_eq_true_iff.1 ht
  have hw := of_decide_eq_true hw
  cases hjob : s.job t with
  | none =>
    rw [hjob] at hask
    cases hask
  | some job =>
    obtain ⟨c, p⟩ := job
    rw [hjob] at hask
    cases p with
    | done | lock | unlock | test => cases hask
    | ask r k =>
      have hhas := (h.safe t c _ hjob).1
      cases hp : s.lock.phase t with
      | out =>
        rw [hp] at hhas
        cases hhas
      | waiting => exact absurd hp hw
      | inside => exact (h.kept.owned t hp).resolve_right fun hgone => absurd (hgone.symm.trans h.gone) (by decide)

theorem asks_holder {prog : C → Prog R} (hprog : ∀ c, (prog c).Safe (allowed c) false) {es : List (UserEvent T C)}
    (hl : ((userSystem prog).restrict (Users.Allowed · allowed)).Legal (userStart false : Users T C R) es) {t : T}
    (ht : ((userSystem prog).run (userStart false) es).asks t = true) :
    ((userSystem prog).run (userStart false) es).lock.holder = some t := by
  have hrun : Disciplined allowed (((userSystem prog).restrict (Users.Allowed · allowed)).run (userStart false) es) :=
    System.Legal.invariant (fun _ _ h he => h.step hprog he.1 he.2) Disciplined.start hl
  exact hrun.asks ht

end Steps

end Locks
