import Libogc.Lwp.Boot
import Libogc.Lwp.Enqueue
/-!
# Wakeups — what a dequeue and an expiry do to whom

The two ways a thread is woken, each with all its cases, as the kernel objects need them: a dequeue serves a waiting thread,
or the thread on its way in, or nobody (`Dequeued`); an expiry ends the wait of its thread, or leaves a note for it
(`Expired`).  Everything not named in a case is as it was.
-/
namespace Libogc

open Links

set_option linter.unusedSectionVars false

variable {T W : Type} [DecidableEq T] [DecidableEq W]

/-- **What a dequeue from `w` does.** -/
inductive Dequeued (k : Kernel T W) (Qs : QId T W → Option (List T)) (ph : Option (Enq T W)) (w : W) (k' : Kernel T W)
    (Qs' : QId T W → Option (List T)) : Option T → Prop
  | took (t : T) (waited : Waits Qs w t) (waits : ∀ w' u, Waits Qs' w' u ↔ Waits Qs w' u ∧ u ≠ t) (ready : k'.Ready t)
    (thr : k'.thr = (k.setThr t Lwp.takenOff).thr) (tq : k'.tq = k.tq) : Dequeued k Qs ph w k' Qs' (some t)
  | early (e : Enq T W) (phase : ph = some e) (queue : e.queue = w) (empty : ∀ u, ¬ Waits Qs w u)
    (sync : (k.tq w).syncState ≠ .satisfied) (waits : Qs' = Qs)
    (eq : k' = k.setTq w ({ · with syncState := .satisfied })) : Dequeued k Qs ph w k' Qs' (some e.thread)
  | nobody (empty : ∀ u, ¬ Waits Qs w u) (sync : ∀ e, ph = some e → e.queue = w → (k.tq w).syncState = .satisfied)
    (waits : Qs' = Qs) (eq : k' = k) : Dequeued k Qs ph w k' Qs' none

variable {k : Kernel T W} {Qs : QId T W → Option (List T)} {ph : Option (Enq T W)}

theorem TqInv.dequeue (h : TqInv k Qs ph) (w : W) : ∃ Qs', TqInv (lwpThreadqueueDequeue k w).1 Qs' ph ∧
      Dequeued k Qs ph w (lwpThreadqueueDequeue k w).1 Qs' (lwpThreadqueueDequeue k w).2 := by
  by_cases hu : ∃ u, Waits Qs w u
  · obtain ⟨u, hu⟩ := hu
    obtain ⟨t, m, Qs₁, ht, hrep, htook, he⟩ := h.dequeue_some hu
    obtain ⟨Qs', h', -, hw', hr'⟩ := h.takeOff ht hrep htook
    rw [he]
    exact ⟨Qs', h', .took t ht hw' hr' (lwpThreadUnblock_stopTimer_thr _ _) (lwpThreadUnblock_stopTimer_tq _ _)⟩
  · have hno : ∀ u, ¬ Waits Qs w u := fun u hw => hu ⟨u, hw⟩
    have h' := h.nobody w
    rw [h.dequeue_none hno]
    refine ⟨Qs, h', ?_⟩
    unfold lwpThreadqueueNobody
    cases hs : (k.tq w).syncState with
    | synchronized =>
      refine .nobody hno (fun e he hq => ?_) rfl rfl
      exact absurd hs ((h.sync w).2 ⟨e, he, hq⟩)
    | satisfied => exact .nobody hno (fun _ _ _ => hs) rfl rfl
    | nothinghappend =>
      obtain ⟨e, he, hq⟩ := (h.sync w).1 (by rw [hs]; simp)
      simp only [(h.phase e he).exec]
      exact .early e he hq hno (by rw [hs]; simp) rfl rfl
    | timeout =>
      obtain ⟨e, he, hq⟩ := (h.sync w).1 (by rw [hs]; simp)
      simp only [(h.phase e he).exec]
      exact .early e he hq hno (by rw [hs]; simp) rfl rfl

/-- **What the expiry of the timer of `t` does.** -/
inductive Expired (k : Kernel T W) (Qs : QId T W → Option (List T)) (ph : Option (Enq T W)) (t : T) (k' : Kernel T W)
    (Qs' : QId T W → Option (List T)) : Prop
  | took (w : W) (waited : Waits Qs w t) (waits : ∀ w' u, Waits Qs' w' u ↔ Waits Qs w' u ∧ u ≠ t) (ready : k'.Ready t)
    (thr : k'.thr = (k.setThr t (Lwp.timedOut (k.tq w).timeoutStatus)).thr) (tq : k'.tq = k.tq)
  | noted (e : Enq T W) (phase : ph = some e) (thread : e.thread = t) (waits : Qs' = Qs)
    (thr : k'.thr = (k.setThr t ({ · with timer := .inactive })).thr) (tq : k'.tq =
      (if (k.tq e.queue).syncState ≠ .satisfied then k.setTq e.queue ({ · with syncState := .timeout }) else k).tq)

theorem TqInv.tickle (h : TqInv k Qs ph) {t : T} (ha : (k.thr t).timer = .active) :
    ∃ Qs', TqInv (lwpWdTickle k t) Qs' ph ∧ Expired k Qs ph t (lwpWdTickle k t) Qs' := by
  rcases h.timer t ha with ⟨w, hw⟩ | ⟨e, rfl, rfl⟩
  · obtain ⟨Qs', h', hw', hr', ht', hq', -⟩ := h.tickle_waiting hw
    exact ⟨Qs', h', .took w hw hw' hr' ht' hq'⟩
  · obtain ⟨h', ht', hq', -⟩ := h.tickle_entering ha
    exact ⟨Qs, h', .noted e rfl rfl rfl ht' hq'⟩

theorem TqInv.tickle_executing (h : TqInv k Qs ph) {t : T} (ha : (k.thr t).timer = .active) :
    (lwpWdTickle k t).executing = k.executing := by
  rcases h.timer t ha with ⟨w, hw⟩ | ⟨e, rfl, rfl⟩
  · obtain ⟨_, _, _, _, _, _, hx⟩ := h.tickle_waiting hw
    exact hx
  · exact (h.tickle_entering ha).2.2.2

end Libogc
