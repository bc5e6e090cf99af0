import Libogc.Lib.Runs
import Libogc.Lwp.Enqueue
/-!
# PrioQueue — a priority queue serves the most urgent thread, and the earliest of equals

`waiting` is the list of blocked threads in the order they came.  `PrioInv` says how the four header lists hold it: the
threads of one priority are, in order of arrival, the leader of that priority and its chain (`bucket`); the leaders of a
header are sorted.  Each operation moves one bucket.
-/
namespace Libogc

open Links Runs

set_option linter.unusedSectionVars false

variable {T W : Type} [DecidableEq T] [DecidableEq W]

def Kernel.prioOf (k : Kernel T W) (t : T) : Fin 256 := (k.thr t).curPrio

/-- The blocked threads of one priority, in order of arrival. -/
def atPrio (k : Kernel T W) (waiting : List T) (p : Fin 256) : List T := waiting.filter (fun t => k.prioOf t = p)

/-- **How the header lists hold the blocked threads.** -/
structure PrioInv (k : Kernel T W) (Qs : QId T W → Option (List T)) (w : W) (waiting : List T) : Prop where
  nodup : waiting.Nodup
  header : ∀ i l, l ∈ held Qs (.wait w i) → headerIdx (k.prioOf l) = i
  sorted : ∀ i, (held Qs (.wait w i)).Pairwise (fun a b => k.prioOf a < k.prioOf b)
  chain : ∀ i l, l ∈ held Qs (.wait w i) → ∀ c ∈ held Qs (.block2n l), k.prioOf c = k.prioOf l
  bucket : ∀ i l, l ∈ held Qs (.wait w i) → atPrio k waiting (k.prioOf l) = l :: held Qs (.block2n l)
  empty : ∀ t ∈ waiting, ∃ i, ∃ l ∈ held Qs (.wait w i), k.prioOf l = k.prioOf t

variable {k : Kernel T W} {Qs : QId T W → Option (List T)} {w : W} {waiting l₁ l₂ : List T} {i : Fin 4} {c t : T}
  {q : QId T W}

theorem PrioInv.mem_iff (h : PrioInv k Qs w waiting) (t : T) : t ∈ waiting ↔ Waits Qs w t := by
  constructor
  · intro ht
    obtain ⟨i, l, hl, hp⟩ := h.empty t ht
    have hb : t ∈ atPrio k waiting (k.prioOf l) := by
      rw [atPrio, List.mem_filter]
      exact ⟨ht, by simpa using hp.symm⟩
    rw [h.bucket i l hl, List.mem_cons] at hb
    rcases hb with rfl | hb
    · exact ⟨i, .inl hl⟩
    · exact ⟨i, .inr ⟨l, hl, hb⟩⟩
  · rintro ⟨i, hl | ⟨l, hl, hc⟩⟩
    · have : t ∈ atPrio k waiting (k.prioOf t) := by rw [h.bucket i t hl]; simp
      exact (List.mem_filter.1 this).1
    · have : t ∈ atPrio k waiting (k.prioOf l) := by rw [h.bucket i l hl]; exact List.mem_cons_of_mem _ hc
      exact (List.mem_filter.1 this).1

variable {j : Fin 4} {l : T} {rev : Bool} {p : Fin 256} {e : Enq T W}

theorem PrioInv.leader_unique (h : PrioInv k Qs w waiting) {l' : T} (hl : l ∈ held Qs (.wait w i))
    (hl' : l' ∈ held Qs (.wait w j)) (hp : k.prioOf l = k.prioOf l') : l = l' := by
  have h1 := h.bucket i l hl
  rw [hp, h.bucket j l' hl'] at h1
  exact (List.cons.inj h1).1.symm

/-! ## The search ends at the right place -/

/-- Where a thread of priority `p` belongs on a sorted list of leaders. -/
def RightPlace (k : Kernel T W) (p : Fin 256) (l₁ l₂ : List T) : Prop :=
  (∀ x ∈ l₁, k.prioOf x < p) ∧ ∀ x ∈ l₂, p < k.prioOf x

theorem statesset_of_waits {ph : Option (Enq T W)} (h : TqInv k Qs ph) (hc : Waits Qs w c) :
    lwpStatesset (k.thr c).curState (k.tq w).state = true := by
  rw [(h.waits w c hc).1, lwpStatesset]
  simpa using (h.state w).1

/-- What a search has gone past is on the right side of it. -/
def Passed (k : Kernel T W) (p : Fin 256) (rev : Bool) (l₁ l₂ : List T) : Prop :=
  if rev then ∀ x ∈ l₂, p < k.prioOf x else ∀ x ∈ l₁, k.prioOf x < p

/-- What a search has not looked at yet. -/
def ahead (rev : Bool) (l₁ l₂ : List T) : List T := if rev then l₁ else l₂

theorem SearchPos.split (h : SearchPos Qs q rev (.node c) l₁ l₂) : if rev then ∃ l, l₁ = l ++ [c] else ∃ l, l₂ = c :: l := by
  obtain ⟨-, ha⟩ := h
  cases rev with
  | true =>
    rcases List.eq_nil_or_concat l₁ with rfl | ⟨l, x, rfl⟩
    · cases ha
    · rw [List.concat_eq_append] at ha ⊢
      simp only [if_true, lastOf_append] at ha
      cases ha
      exact ⟨l, rfl⟩
  | false =>
    cases l₂ with
    | nil => cases ha
    | cons x l => cases ha; exact ⟨l, rfl⟩

theorem SearchPos.ahead_nil {a : Link (QId T W) T} (h : SearchPos Qs q rev a l₁ l₂) (ha : ∀ c, a ≠ .node c) : ahead rev l₁ l₂ = [] := by
  obtain ⟨-, hpos⟩ := h
  cases rev with
  | true =>
    rcases List.eq_nil_or_concat l₁ with rfl | ⟨l, x, rfl⟩
    · rfl
    · rw [List.concat_eq_append] at hpos
      simp only [if_true, lastOf_append] at hpos
      exact absurd hpos (ha x)
  | false =>
    cases l₂ with
    | nil => rfl
    | cons x l => exact absurd hpos (ha x)

/-- The test that ends the search, at a thread of another priority, ends it at the right place. -/
theorem rightPlace_of_stops (hsplit : if reverseSearch p then ∃ l, l₁ = l ++ [c] else ∃ l, l₂ = c :: l)
    (hsort : (l₁ ++ l₂).Pairwise (fun a b => k.prioOf a < k.prioOf b)) (hpass : Passed k p (reverseSearch p) l₁ l₂)
    (hst : searchStops p (k.prioOf c) = true) (hne : k.prioOf c ≠ p) : RightPlace k p l₁ l₂ := by
  obtain ⟨hs₁, hs₂, -⟩ := List.pairwise_append.1 hsort
  unfold Passed searchStops at *
  cases hrev : reverseSearch p with
  | true =>
    simp only [hrev, if_true, decide_eq_true_eq] at hsplit hpass hst
    obtain ⟨l, rfl⟩ := hsplit
    have hlt : k.prioOf c < p := lt_of_le_of_ne hst hne
    refine ⟨fun x hx => ?_, hpass⟩
    rcases List.mem_append.1 hx with hx | hx
    · exact ((List.pairwise_append.1 hs₁).2.2 x hx c (by simp)).trans hlt
    · rw [List.mem_singleton.1 hx]; exact hlt
  | false =>
    simp only [hrev, Bool.false_eq_true, if_false, decide_eq_true_eq] at hsplit hpass hst
    obtain ⟨l, rfl⟩ := hsplit
    have hlt : p < k.prioOf c := lt_of_le_of_ne hst (Ne.symm hne)
    refine ⟨hpass, fun x hx => ?_⟩
    rcases List.mem_cons.1 hx with rfl | hx
    · exact hlt
    · exact hlt.trans ((List.pairwise_cons.1 hs₂).1 x hx)

/-- A search that goes on stands one thread further, with that thread behind it. -/
theorem searchNext_pos (hr : Rep k.mem Qs) {p : Nat} (hset : lwpStatesset (k.thr c).curState (k.tq e.queue).state = true)
    (hpos : SearchPos Qs q (reverseSearch (k.prioOf e.thread)) (.node c) l₁ l₂)
    (hpass : Passed k (k.prioOf e.thread) (reverseSearch (k.prioOf e.thread)) l₁ l₂)
    (hst : searchStops (k.prioOf e.thread) (k.prioOf c) = false) : ∃ m₁ m₂,
      SearchPos Qs q (reverseSearch (k.prioOf e.thread)) (searchNext k e c p).1 m₁ m₂ ∧ (searchNext k e c p).2 = p ∧
      m₁ ++ m₂ = l₁ ++ l₂ ∧ Passed k (k.prioOf e.thread) (reverseSearch (k.prioOf e.thread)) m₁ m₂ ∧
      (ahead (reverseSearch (k.prioOf e.thread)) m₁ m₂).length + 1 =
        (ahead (reverseSearch (k.prioOf e.thread)) l₁ l₂).length := by
  have hsplit := hpos.split
  have hprio : (k.thr e.thread).curPrio = k.prioOf e.thread := rfl
  unfold searchNext Passed searchStops ahead at *
  rw [hprio]
  cases hrev : reverseSearch (k.prioOf e.thread) with
  | true =>
    simp only [hrev, if_true, decide_eq_false_iff_not, not_le, hset, Bool.not_true, Bool.false_eq_true, if_false] at *
    obtain ⟨l, rfl⟩ := hsplit
    have hq : Qs q = some (l ++ c :: l₂) := by simpa using hpos.1
    refine ⟨l, c :: l₂, (SearchPos.next hr hq).2, trivial, by simp, fun x hx => ?_, by simp⟩
    rcases List.mem_cons.1 hx with rfl | hx
    · exact hst
    · exact hpass x hx
  | false =>
    simp only [hrev, decide_eq_false_iff_not, not_le, hset, Bool.not_true, Bool.false_eq_true, if_false] at *
    obtain ⟨l, rfl⟩ := hsplit
    refine ⟨l₁ ++ [c], l, (SearchPos.next hr hpos.1).1, trivial, by simp, fun x hx => ?_, by simp⟩
    rcases List.mem_append.1 hx with hx | hx
    · exact hpass x hx
    · rw [List.mem_singleton.1 hx]; exact hst

/-- **The search ends**, and ends at the right place on the list or at the leader of the same priority. -/
theorem search_ends (hr : Rep k.mem Qs) (hset : ∀ c ∈ held Qs q, lwpStatesset (k.thr c).curState (k.tq e.queue).state = true)
    (hsort : (held Qs q).Pairwise (fun a b => k.prioOf a < k.prioOf b)) :
    ∀ (n : Nat) (pos : Link (QId T W) T × Nat) (pc : EnqPc T) (l₁ l₂ : List T),
    SearchPos Qs q (reverseSearch (k.prioOf e.thread)) pos.1 l₁ l₂ → pos.2 ≠ (k.prioOf e.thread).val →
    Passed k (k.prioOf e.thread) (reverseSearch (k.prioOf e.thread)) l₁ l₂ →
    (ahead (reverseSearch (k.prioOf e.thread)) l₁ l₂).length ≤ n → ∃ a p m₁ m₂,
      (match searchRound k { e with pc := pc } pos with
        | (k, some e) => lwpThreadqueueEnqueue n k e
        | (k, none) => (k, none)) = (searchDone k e.queue e.thread a p, none) ∧
      SearchPos Qs q (reverseSearch (k.prioOf e.thread)) a m₁ m₂ ∧
      ((p ≠ (k.prioOf e.thread).val ∧ RightPlace k (k.prioOf e.thread) m₁ m₂) ∨
        (p = (k.prioOf e.thread).val ∧ ∃ c, a = .node c ∧ k.prioOf c = k.prioOf e.thread)) := by
  intro n
  induction n using Nat.strong_induction_on with
  | h n ih =>
  intro pos pc l₁ l₂ hpos hp hpass hn
  obtain ⟨a, p⟩ := pos
  simp only at hpos hp
  rcases hpos.cases with ⟨c, rfl⟩ | hne
  · have hround : ∀ pc, searchRound k { e with pc := pc } (.node c, p) =
        if searchStops (k.prioOf e.thread) (k.prioOf c) then
          (searchDone k e.queue e.thread (.node c) (k.prioOf c).val, none)
        else (k, some { e with pc := .search c (k.prioOf c).val }) := fun _ => rfl
    rw [hround]
    cases hst : searchStops (k.prioOf e.thread) (k.prioOf c) with
    | true =>
      refine ⟨.node c, (k.prioOf c).val, l₁, l₂, rfl, hpos, ?_⟩
      by_cases heq : k.prioOf c = k.prioOf e.thread
      · exact .inr ⟨by rw [heq], c, rfl, heq⟩
      · rw [held_eq hpos.1] at hsort
        exact .inl ⟨fun e' => heq (Fin.ext e'), rightPlace_of_stops hpos.split hsort hpass hst heq⟩
    | false =>
      -- `c` is still blocked, so the search steps past it
      have hlt : (k.prioOf c).val ≠ (k.prioOf e.thread).val := by
        intro heq
        rw [Fin.ext heq, searchStops] at hst
        split at hst <;> simp at hst
      obtain ⟨m₁, m₂, hnext, hsp, -, hpass', hlen⟩ :=
        searchNext_pos (p := (k.prioOf c).val) hr (hset c hpos.mem) hpos hpass hst
      obtain ⟨n, rfl⟩ : ∃ n', n = n' + 1 := ⟨n - 1, by omega⟩
      obtain ⟨a', p', m₁', m₂', he, hend⟩ := ih n (by omega) (searchNext k e c (k.prioOf c).val)
        (.search c (k.prioOf c).val) m₁ m₂ hnext (by rw [hsp]; exact hlt) hpass' (by omega)
      exact ⟨a', p', m₁', m₂', he, hend⟩
  · have hround : searchRound k { e with pc := pc } (a, p) = (searchDone k e.queue e.thread a p, none) := by
      cases a with
      | node c => exact absurd rfl (hne c)
      | null => rfl
      | head q => rfl
      | tail q => rfl
    rw [hround]
    refine ⟨a, p, l₁, l₂, rfl, hpos, .inl ⟨hp, ?_⟩⟩
    have hnil := hpos.ahead_nil hne
    unfold ahead Passed at *
    cases hrev : reverseSearch (k.prioOf e.thread) with
    | true => rw [hrev] at hnil hpass; exact ⟨by rw [show l₁ = [] from hnil]; simp, hpass⟩
    | false => rw [hrev] at hnil hpass; exact ⟨hpass, by rw [show l₂ = [] from hnil]; simp⟩

/-! ## Putting a thread on -/

theorem atPrio_append (k : Kernel T W) (waiting : List T) (t : T) (p : Fin 256) :
    atPrio k (waiting ++ [t]) p = if k.prioOf t = p then atPrio k waiting p ++ [t] else atPrio k waiting p := by
  unfold atPrio
  rw [List.filter_append]
  split
  · rename_i hp
    simp [hp]
  · rename_i hp
    simp [hp]

variable {Qs' : QId T W → Option (List T)} {m : Mem (QId T W) T}

theorem PrioInv.congr {k' : Kernel T W} (h : PrioInv k Qs w waiting) (hp : ∀ t ∈ waiting, k'.prioOf t = k.prioOf t)
    (hw : ∀ i, held Qs' (.wait w i) = held Qs (.wait w i))
    (hc : ∀ i l, l ∈ held Qs (.wait w i) → held Qs' (.block2n l) = held Qs (.block2n l)) : PrioInv k' Qs' w waiting := by
  have hlead : ∀ i l, l ∈ held Qs (.wait w i) → k'.prioOf l = k.prioOf l :=
    fun i l hl => hp l ((h.mem_iff l).2 ⟨i, .inl hl⟩)
  have hat : ∀ p, atPrio k' waiting p = atPrio k waiting p := fun p =>
    List.filter_congr fun t ht => by rw [hp t ht]
  refine ⟨h.nodup, fun i l hl => ?_, fun i => ?_, fun i l hl c hcm => ?_, fun i l hl => ?_, fun t ht => ?_⟩
  · rw [hw] at hl
    rw [hlead i l hl]
    exact h.header i l hl
  · rw [hw]
    exact (h.sorted i).imp_of_mem fun ha hb hab => by rw [hlead i _ ha, hlead i _ hb]; exact hab
  · rw [hw] at hl
    rw [hc i l hl] at hcm
    rw [hlead i l hl, hp c ((h.mem_iff c).2 ⟨i, .inr ⟨l, hl, hcm⟩⟩)]
    exact h.chain i l hl c hcm
  · rw [hw] at hl
    rw [hc i l hl, hlead i l hl, hat]
    exact h.bucket i l hl
  · obtain ⟨i, l, hl, he⟩ := h.empty t ht
    exact ⟨i, l, by rw [hw]; exact hl, by rw [hlead i l hl, hp t ht]; exact he⟩

theorem PrioInv.put_leader (h : PrioInv k Qs w waiting) (ht : t ∉ waiting)
    (hq : Qs (.wait w (headerIdx (k.prioOf t))) = some (l₁ ++ l₂)) (hb : held Qs (.block2n t) = [])
    (hplace : RightPlace k (k.prioOf t) l₁ l₂) :
    PrioInv k (Function.update Qs (.wait w (headerIdx (k.prioOf t))) (some (l₁ ++ t :: l₂))) w (waiting ++ [t]) := by
  set Qs' := Function.update Qs (.wait w (headerIdx (k.prioOf t))) (some (l₁ ++ t :: l₂)) with hQs'
  -- nobody leads this priority yet
  have hnone : ∀ i l, l ∈ held Qs (.wait w i) → k.prioOf l ≠ k.prioOf t := by
    intro i l hl he
    have hi := h.header i l hl
    rw [he] at hi
    subst hi
    rw [held_eq hq] at hl
    rcases List.mem_append.1 hl with hl | hl
    · exact absurd he (ne_of_lt (hplace.1 l hl))
    · exact absurd he (ne_of_gt (hplace.2 l hl))
  have hmem : ∀ i l, l ∈ held Qs' (.wait w i) ↔ l ∈ held Qs (.wait w i) ∨ (i = headerIdx (k.prioOf t) ∧ l = t) := by
    intro i l
    by_cases hi : i = headerIdx (k.prioOf t)
    · subst hi
      rw [hQs', held_update_self, held_eq hq, Option.getD_some]
      simp only [List.mem_append, List.mem_cons, true_and]
      tauto
    · rw [hQs', held_update_ne _ _ (by simpa using hi)]
      tauto
  have hblk : ∀ l, held Qs' (.block2n l) = held Qs (.block2n l) := fun l => held_update_ne _ _ (by simp)
  have hfresh : atPrio k waiting (k.prioOf t) = [] := by
    rw [atPrio, List.filter_eq_nil_iff]
    intro u hu hp
    obtain ⟨i, l, hl, he⟩ := h.empty u hu
    exact hnone i l hl (he.trans (by simpa using hp))
  refine ⟨?_, fun i l hl => ?_, fun i => ?_, fun i l hl c hc => ?_, fun i l hl => ?_, fun u hu => ?_⟩
  · exact h.nodup.append (List.nodup_singleton t) (by simpa using ht)
  · rcases (hmem i l).1 hl with hl | ⟨rfl, rfl⟩
    · exact h.header i l hl
    · rfl
  · by_cases hi : i = headerIdx (k.prioOf t)
    · subst hi
      have hs := h.sorted (headerIdx (k.prioOf t))
      rw [held_eq hq, List.pairwise_append] at hs
      rw [hQs', held_update_self, Option.getD_some, List.pairwise_append, List.pairwise_cons]
      refine ⟨hs.1, ⟨hplace.2, hs.2.1⟩, fun a ha b hb => ?_⟩
      rcases List.mem_cons.1 hb with rfl | hb
      · exact hplace.1 a ha
      · exact hs.2.2 a ha b hb
    · rw [hQs', held_update_ne _ _ (by simpa using hi)]
      exact h.sorted i
  · rw [hblk] at hc
    rcases (hmem i l).1 hl with hl | ⟨rfl, rfl⟩
    · exact h.chain i l hl c hc
    · rw [hb] at hc
      cases hc
  · rw [hblk, atPrio_append]
    rcases (hmem i l).1 hl with hl | ⟨rfl, rfl⟩
    · rw [if_neg (Ne.symm (hnone i l hl))]
      exact h.bucket i l hl
    · rw [if_pos rfl, hfresh, hb]
      rfl
  · rcases List.mem_append.1 hu with hu | hu
    · obtain ⟨i, l, hl, he⟩ := h.empty u hu
      exact ⟨i, l, (hmem i l).2 (.inl hl), he⟩
    · rw [List.mem_singleton.1 hu]
      exact ⟨_, t, (hmem _ _).2 (.inr ⟨rfl, rfl⟩), rfl⟩

theorem PrioInv.put_chained (h : PrioInv k Qs w waiting) {ys : List T} (ht : t ∉ waiting) (hc : c ∈ held Qs (.wait w i))
    (hp : k.prioOf c = k.prioOf t) (hq : Qs (.block2n c) = some ys) :
    PrioInv k (Function.update Qs (.block2n c) (some (ys ++ [t]))) w (waiting ++ [t]) := by
  set Qs' := Function.update Qs (.block2n c) (some (ys ++ [t])) with hQs'
  have hwait : ∀ i, held Qs' (.wait w i) = held Qs (.wait w i) := fun i => held_update_ne _ _ (by simp)
  have hblk : ∀ l, l ≠ c → held Qs' (.block2n l) = held Qs (.block2n l) := fun l hl => held_update_ne _ _ (by simpa using hl)
  have hself : held Qs' (.block2n c) = held Qs (.block2n c) ++ [t] := by
    rw [hQs', held_update_self, held_eq hq]
    rfl
  refine ⟨h.nodup.append (List.nodup_singleton t) (by simpa using ht), fun j l hl => ?_, fun j => ?_,
    fun j l hl x hx => ?_, fun j l hl => ?_, fun u hu => ?_⟩
  · rw [hwait] at hl
    exact h.header j l hl
  · rw [hwait]
    exact h.sorted j
  · rw [hwait] at hl
    by_cases hlc : l = c
    · subst hlc
      rw [hself] at hx
      rcases List.mem_append.1 hx with hx | hx
      · exact h.chain j l hl x hx
      · rw [List.mem_singleton.1 hx]; exact hp.symm
    · rw [hblk l hlc] at hx
      exact h.chain j l hl x hx
  · rw [hwait] at hl
    rw [atPrio_append]
    by_cases hlc : l = c
    · subst hlc
      rw [if_pos hp.symm, h.bucket j l hl, hself]
      rfl
    · rw [if_neg (fun e => hlc (h.leader_unique hl hc (e.symm.trans hp.symm))), hblk l hlc]
      exact h.bucket j l hl
  · rcases List.mem_append.1 hu with hu | hu
    · obtain ⟨j, l, hl, he⟩ := h.empty u hu
      exact ⟨j, l, by rw [hwait]; exact hl, he⟩
    · rw [List.mem_singleton.1 hu]
      exact ⟨i, c, by rw [hwait]; exact hc, hp⟩

/-! ## Taking a thread off -/

theorem atPrio_erase (hnd : waiting.Nodup) (t : T) (p : Fin 256) : atPrio k (waiting.erase t) p = (atPrio k waiting p).erase t := by
  rw [hnd.erase_eq_filter, atPrio, atPrio, (hnd.filter _).erase_eq_filter, List.filter_filter, List.filter_filter]
  exact List.filter_congr fun u _ => Bool.and_comm _ _

theorem PrioInv.bucket_other (h : PrioInv k Qs w waiting) (hp : k.prioOf t ≠ p) : atPrio k (waiting.erase t) p = atPrio k waiting p := by
  rw [atPrio_erase h.nodup, List.erase_of_not_mem]
  intro ht
  exact hp (by simpa using (List.mem_filter.1 ht).2)

theorem PrioInv.off_chain (h : PrioInv k Qs w waiting) (hr : Rep m Qs) {ys₁ ys₂ : List T} (hl : l ∈ held Qs (.wait w i))
    (hq : Qs (.block2n l) = some (ys₁ ++ t :: ys₂)) :
    PrioInv k (Function.update Qs (.block2n l) (some (ys₁ ++ ys₂))) w (waiting.erase t) := by
  set Qs' := Function.update Qs (.block2n l) (some (ys₁ ++ ys₂)) with hQs'
  have hwait : ∀ i, held Qs' (.wait w i) = held Qs (.wait w i) := fun i => held_update_ne _ _ (by simp)
  have hblk : ∀ x, x ≠ l → held Qs' (.block2n x) = held Qs (.block2n x) := fun x hx => held_update_ne _ _ (by simpa using hx)
  have hself : held Qs' (.block2n l) = ys₁ ++ ys₂ := held_update_self _ _ _
  have htl : t ∈ held Qs (.block2n l) := by rw [held_eq hq]; simp
  have hne : l ≠ t := by
    rintro rfl
    cases hr.held_inj hl htl
  have hp := h.chain i l hl t htl
  have hnd := hr.nodup hq
  have hnot : t ∉ ys₁ := fun hx => (List.nodup_append.1 hnd).2.2 t hx t (by simp) rfl
  refine ⟨h.nodup.erase t, fun j x hx => ?_, fun j => ?_, fun j x hx c hc => ?_, fun j x hx => ?_, fun u hu => ?_⟩
  · rw [hwait] at hx
    exact h.header j x hx
  · rw [hwait]
    exact h.sorted j
  · rw [hwait] at hx
    by_cases hxl : x = l
    · subst hxl
      rw [hself] at hc
      exact h.chain j x hx c (by rw [held_eq hq]; exact ((mem_remove_iff hnd).1 hc).1)
    · rw [hblk x hxl] at hc
      exact h.chain j x hx c hc
  · rw [hwait] at hx
    by_cases hxl : x = l
    · subst hxl
      rw [atPrio_erase h.nodup, h.bucket j x hx, hself, held_eq hq, List.erase_cons_tail (by simpa using hne),
        List.erase_append_right _ hnot, List.erase_cons_head]
    · rw [hblk x hxl, h.bucket_other (fun e => hxl (h.leader_unique hx hl (e.symm.trans hp)))]
      exact h.bucket j x hx
  · obtain ⟨j, x, hx, he⟩ := h.empty u (List.mem_of_mem_erase hu)
    exact ⟨j, x, by rw [hwait]; exact hx, he⟩

/-- A leader goes, with its place taken by `cs`: nobody, or the first of its chain. -/
theorem PrioInv.off_leader (h : PrioInv k Qs w waiting) (hr : Rep m Qs) {c : Option T}
    (hq : Qs (.wait w i) = some (l₁ ++ t :: l₂)) (hq' : held Qs' (.wait w i) = l₁ ++ c.toList ++ l₂)
    (hwait : ∀ j, j ≠ i → held Qs' (.wait w j) = held Qs (.wait w j))
    (hblk : ∀ j x, x ∈ held Qs (.wait w j) → x ≠ t → held Qs' (.block2n x) = held Qs (.block2n x))
    (hchain : held Qs (.block2n t) = (c.map (fun c => c :: held Qs' (.block2n c))).getD []) :
    PrioInv k Qs' w (waiting.erase t) := by
  have ht : t ∈ held Qs (.wait w i) := by rw [held_eq hq]; simp
  have hnd := hr.nodup hq
  have hbucket := h.bucket i t ht
  have hcp : ∀ x, c = some x → k.prioOf x = k.prioOf t := fun x hx => h.chain i t ht x (by rw [hchain, hx]; simp)
  have hmem : ∀ j x, x ∈ held Qs' (.wait w j) ↔ (x ∈ held Qs (.wait w j) ∧ x ≠ t) ∨ (j = i ∧ c = some x) := by
    intro j x
    by_cases hj : j = i
    · subst hj
      rw [hq', held_eq hq, ← mem_remove_iff hnd]
      simp only [List.mem_append, Option.mem_toList]
      tauto
    · rw [hwait j hj]
      constructor
      · intro hx
        refine .inl ⟨hx, ?_⟩
        rintro rfl
        cases hr.held_inj hx ht
        exact hj rfl
      · rintro (hx | ⟨e, -⟩)
        · exact hx.1
        · exact absurd e hj
  have hrest : atPrio k (waiting.erase t) (k.prioOf t) = held Qs (.block2n t) := by
    rw [atPrio_erase h.nodup, hbucket, List.erase_cons_head]
  refine ⟨h.nodup.erase t, fun j x hx => ?_, fun j => ?_, fun j x hx y hy => ?_, fun j x hx => ?_, fun u hu => ?_⟩
  · rcases (hmem j x).1 hx with ⟨hx, -⟩ | ⟨rfl, hx⟩
    · exact h.header j x hx
    · rw [hcp x hx]
      exact h.header j t ht
  · by_cases hj : j = i
    · subst hj
      have hs := h.sorted j
      rw [held_eq hq, List.pairwise_append, List.pairwise_cons] at hs
      obtain ⟨hs₁, ⟨hst, hs₂⟩, hs₃⟩ := hs
      rw [hq']
      cases c with
      | none =>
        simp only [Option.toList_none, List.append_nil]
        exact List.pairwise_append.2 ⟨hs₁, hs₂, fun a ha b hb => hs₃ a ha b (List.mem_cons_of_mem _ hb)⟩
      | some x =>
        have hx := hcp x rfl
        simp only [Option.toList_some, List.append_assoc, List.cons_append, List.nil_append]
        refine List.pairwise_append.2 ⟨hs₁, List.pairwise_cons.2 ⟨fun b hb => by rw [hx]; exact hst b hb, hs₂⟩,
          fun a ha b hb => ?_⟩
        rcases List.mem_cons.1 hb with rfl | hb
        · rw [hx]; exact hs₃ a ha t (by simp)
        · exact hs₃ a ha b (List.mem_cons_of_mem _ hb)
    · rw [hwait j hj]
      exact h.sorted j
  · rcases (hmem j x).1 hx with ⟨hx, hxt⟩ | ⟨rfl, rfl⟩
    · rw [hblk j x hx hxt] at hy
      exact h.chain j x hx y hy
    · rw [hcp x rfl]
      exact h.chain j t ht y (by rw [hchain]; exact List.mem_cons_of_mem _ hy)
  · rcases (hmem j x).1 hx with ⟨hx, hxt⟩ | ⟨rfl, rfl⟩
    · rw [hblk j x hx hxt, h.bucket_other (fun e => hxt (h.leader_unique hx ht e.symm))]
      exact h.bucket j x hx
    · rw [hcp x rfl, hrest, hchain]
      rfl
  · obtain ⟨j, l, hl, he⟩ := h.empty u (List.mem_of_mem_erase hu)
    by_cases hlt : l = t
    · -- somebody of this priority is left, so the chain was not empty
      subst hlt
      have hu' : u ∈ held Qs (.block2n l) := by
        rw [← hrest, atPrio, List.mem_filter]
        exact ⟨hu, by simpa using he.symm⟩
      cases c with
      | none => rw [hchain] at hu'; cases hu'
      | some x => exact ⟨i, x, (hmem i x).2 (.inr ⟨rfl, rfl⟩), (hcp x rfl).trans he⟩
    · exact ⟨j, l, (hmem j l).2 (.inl ⟨hl, hlt⟩), he⟩

/-- **Unlinking a thread takes it out of its bucket**, wherever it stands there. -/
theorem PrioInv.unlinked (h : PrioInv k Qs w waiting) (hr : Rep m Qs) (ht : Waits Qs w t) (hu : Unlinked Qs t Qs') :
    PrioInv k Qs' w (waiting.erase t) := by
  obtain ⟨i, hl | ⟨l, hl, hc⟩⟩ := ht
  · cases hu with
    | chained hq hb => cases hr.held_inj hl (by rw [held_eq hq]; simp)
    | alone hq hb =>
      cases hr.held_inj hl (by rw [held_eq hq]; simp)
      refine h.off_leader hr (c := none) hq (by simp [held_update_self]) (fun j hj => ?_) (fun j x hx hxt => ?_)
        (held_eq hb)
      · exact held_update_ne _ _ (by simpa using hj)
      · exact held_update_ne _ _ (by simp)
    | promoted hq hb hcb =>
      rename_i w' i' l₁ l₂ c cs
      cases hr.held_inj hl (by rw [held_eq hq]; simp)
      have hcm : c ∈ held Qs (.block2n t) := by rw [held_eq hb]; simp
      refine h.off_leader hr (c := some c) hq ?_ (fun j hj => ?_) (fun j x hx hxt => ?_) ?_
      · rw [held_update_ne _ _ (by simp), held_update_self]
        simp
      · rw [held_update_ne _ _ (by simp), held_update_ne _ _ (by simpa using hj), held_update_ne _ _ (by simp)]
      · have hxc : x ≠ c := by
          rintro rfl
          cases hr.held_inj hx hcm
        rw [held_update_ne _ _ (by simpa using hxc), held_update_ne _ _ (by simp), held_update_ne _ _ (by simpa using hxt)]
      · rw [held_eq hb]
        simp [held_update_self]
  · cases hu with
    | chained hq hb =>
      cases hr.held_inj hc (by rw [held_eq hq]; simp)
      exact h.off_chain hr hl hq
    | alone hq hb => cases hr.held_inj hc (by rw [held_eq hq]; simp)
    | promoted hq hb hcb => cases hr.held_inj hc (by rw [held_eq hq]; simp)

/-! ## The thread a dequeue finds -/

/-- **The first leader of the first header list is the most urgent thread**, and came before all of its priority. -/
theorem PrioInv.first (h : PrioInv k Qs w waiting) {xs : List T} (hq : Qs (.wait w j) = some (t :: xs))
    (hempty : ∀ i, i < j → held Qs (.wait w i) = []) :
    ∃ a b, waiting = a ++ t :: b ∧ (∀ u ∈ a, k.prioOf t < k.prioOf u) ∧ ∀ u ∈ b, k.prioOf t ≤ k.prioOf u := by
  have ht : t ∈ held Qs (.wait w j) := by rw [held_eq hq]; simp
  have hmin : ∀ u ∈ waiting, k.prioOf t ≤ k.prioOf u := by
    intro u hu
    obtain ⟨i, l, hl, he⟩ := h.empty u hu
    rw [← he]
    have hi := h.header i l hl
    have hj := h.header j t ht
    rcases lt_trichotomy i j with hij | rfl | hij
    · rw [hempty i hij] at hl
      cases hl
    · rw [held_eq hq] at hl
      rcases List.mem_cons.1 hl with rfl | hl
      · exact le_rfl
      · have hs := h.sorted i
        rw [held_eq hq, List.pairwise_cons] at hs
        exact le_of_lt (hs.1 l hl)
    · rw [← hi, ← hj, Fin.lt_def] at hij
      simp only [headerIdx] at hij
      rw [Fin.le_def]
      omega
  obtain ⟨a, b, hab⟩ := List.append_of_mem ((h.mem_iff t).2 ⟨j, .inl ht⟩)
  refine ⟨a, b, hab, fun u hu => lt_of_le_of_ne (hmin u (by rw [hab]; simp [hu])) fun e => ?_,
    fun u hu => hmin u (by rw [hab]; simp [hu])⟩
  -- an earlier thread of the same priority would be the first of the bucket
  have hb := h.bucket j t ht
  have hnd := h.nodup
  rw [hab] at hb hnd
  rw [atPrio, List.filter_append] at hb
  have hne : (a.filter (fun x => k.prioOf x = k.prioOf t)) ≠ [] :=
    List.ne_nil_of_mem (List.mem_filter.2 ⟨hu, by simpa using e.symm⟩)
  obtain ⟨y, ys, hy⟩ := List.exists_cons_of_ne_nil hne
  rw [hy, List.cons_append] at hb
  have hya : y ∈ a := (List.mem_filter.1 (by rw [hy]; simp : y ∈ a.filter _)).1
  rw [(List.cons.inj hb).1] at hya
  exact (List.nodup_append.1 hnd).2.2 t hya t (by simp) rfl

end Libogc
