import Mathlib.Data.List.Chain
import Mathlib.Tactic.Common
/-!
# Chains — doubly linked lists in raw memory

`nx` and `pv` give the words of a node that hold the next and the previous one.  Unlike a queue header with words of its own,
the ends of a list are nodes like the others, of which only one word is read: a list is linked when each two neighbours are.
-/
namespace Chains

variable {C N : Type} {nx pv : N → C} {m m' : C → N}

/-- **The nodes of `L` are linked**, each to the next one and back. -/
def Linked (nx pv : N → C) (m : C → N) (L : List N) : Prop := L.IsChain fun u v => m (nx u) = v ∧ m (pv v) = u

/-- A list reads the `nx` words of all nodes but the last and the `pv` words of all but the first. -/
theorem Linked.frame : ∀ {L : List N}, Linked nx pv m L → (∀ u ∈ L.dropLast, m' (nx u) = m (nx u)) →
    (∀ v ∈ L.tail, m' (pv v) = m (pv v)) → Linked nx pv m' L
  | [], _, _, _ => .nil
  | [a], _, _, _ => .singleton a
  | a :: b :: l, h, hn, hp => by
    unfold Linked at h ⊢
    rw [List.isChain_cons_cons] at h ⊢
    refine ⟨⟨(hn a (by simp)).trans h.1.1, (hp b (by simp)).trans h.1.2⟩, ?_⟩
    exact Linked.frame h.2 (fun u hu => hn u (by simp [hu])) (fun v hv => hp v (by simp only [List.tail_cons] at hv ⊢; simp [hv]))

/-- **Rewriting the middle of a list**: once the new middle is linked to its two neighbours, the list holds it in place of the old
one. -/
theorem Linked.relink {l₁ l₂ old new : List N} {a b : N} (h : Linked nx pv m (l₁ ++ a :: (old ++ b :: l₂)))
    (hmid : Linked nx pv m' (a :: (new ++ [b]))) (hn₁ : ∀ u ∈ l₁, m' (nx u) = m (nx u))
    (hp₁ : ∀ v ∈ (l₁ ++ [a]).tail, m' (pv v) = m (pv v)) (hn₂ : ∀ u ∈ (b :: l₂).dropLast, m' (nx u) = m (nx u))
    (hp₂ : ∀ v ∈ l₂, m' (pv v) = m (pv v)) : Linked nx pv m' (l₁ ++ a :: (new ++ b :: l₂)) := by
  unfold Linked at h hmid ⊢
  rw [List.isChain_split, List.isChain_cons_split] at h ⊢
  obtain ⟨hl, -, hr⟩ := h
  refine ⟨?_, hmid, ?_⟩
  · refine Linked.frame (m := m) hl (fun u hu => hn₁ u ?_) hp₁
    rw [List.dropLast_concat] at hu
    exact hu
  · exact Linked.frame (m := m) hr hn₂ hp₂

theorem Linked.neighbours {l₁ l₂ : List N} {a n b : N} (h : Linked nx pv m (l₁ ++ a :: n :: b :: l₂)) : m (pv n) = a ∧ m (nx n) = b := by
  unfold Linked at h
  rw [List.isChain_append_cons_cons, List.isChain_cons_cons] at h
  exact ⟨h.2.1.2, h.2.2.1.1⟩

theorem exists_concat_getLastD (h : N) : ∀ f₁ : List N, ∃ g₁, h :: f₁ = g₁ ++ [f₁.getLastD h]
  | [] => ⟨[], rfl⟩
  | x :: f => by
    obtain ⟨g, hg⟩ := exists_concat_getLastD x f
    exact ⟨h :: g, by rw [List.getLastD_cons, List.cons_append, ← hg]⟩

theorem exists_cons_headD (f₂ : List N) (t : N) : ∃ g₂, f₂ ++ [t] = f₂.headD t :: g₂ := by
  cases f₂ with
  | nil => exact ⟨[], rfl⟩
  | cons x f => exact ⟨f ++ [t], rfl⟩

/-- **Rewriting between the ends** of a list `h … t`: only the neighbours of the middle change. -/
theorem Linked.splice {f₁ f₂ old new : List N} {h t : N} (hL : Linked nx pv m (h :: (f₁ ++ (old ++ (f₂ ++ [t])))))
    (hnd : (h :: (f₁ ++ (f₂ ++ [t]))).Nodup) (hmid : Linked nx pv m' (f₁.getLastD h :: (new ++ [f₂.headD t])))
    (hn : ∀ u ∈ h :: (f₁ ++ f₂), u ≠ f₁.getLastD h → m' (nx u) = m (nx u))
    (hp : ∀ v ∈ f₁ ++ (f₂ ++ [t]), v ≠ f₂.headD t → m' (pv v) = m (pv v)) : Linked nx pv m' (h :: (f₁ ++ (new ++ (f₂ ++ [t])))) := by
  obtain ⟨g₁, hg⟩ := exists_concat_getLastD h f₁
  obtain ⟨g₂, hb⟩ := exists_cons_headD f₂ t
  set a := f₁.getLastD h
  set b := f₂.headD t
  have hsplit : ∀ mid : List N, h :: (f₁ ++ (mid ++ (f₂ ++ [t]))) = g₁ ++ a :: (mid ++ b :: g₂) := fun mid => by
    rw [hb, ← List.cons_append, hg, List.append_assoc]
    rfl
  rw [hsplit] at hL ⊢
  have hnd' : (g₁ ++ a :: b :: g₂).Nodup := by
    rw [← List.cons_append, hb, hg, List.append_assoc] at hnd
    exact hnd
  have hmem₁ : ∀ u ∈ g₁, u ∈ h :: f₁ ∧ u ≠ a := fun u hu => by
    refine ⟨by rw [hg]; simp [hu], fun he => ?_⟩
    rw [List.nodup_append] at hnd'
    exact hnd'.2.2 u hu a (by simp) he
  have hmem₂ : ∀ v ∈ g₂, v ∈ f₂ ++ [t] ∧ v ≠ b := fun v hv => by
    refine ⟨by rw [hb]; simp [hv], fun he => ?_⟩
    rw [List.nodup_append, List.nodup_cons, List.nodup_cons] at hnd'
    exact hnd'.2.1.2.1 (he ▸ hv)
  have hne : ∀ {u}, u ∈ g₁ ++ [a] → u ∉ b :: g₂ := fun {u} hu hv => by
    rw [show g₁ ++ a :: b :: g₂ = (g₁ ++ [a]) ++ b :: g₂ by simp, List.nodup_append] at hnd'
    exact hnd'.2.2 u hu u hv rfl
  refine hL.relink hmid (fun u hu => ?_) (fun v hv => ?_) (fun u hu => ?_) (fun v hv => ?_)
  · obtain ⟨h1, h2⟩ := hmem₁ u hu
    refine hn u ?_ h2
    rw [← List.cons_append]
    exact List.mem_append_left _ h1
  · have hv' : v ∈ f₁ := by
      rw [← hg] at hv
      exact hv
    refine hp v (List.mem_append_left _ hv') fun he => ?_
    exact hne (by rw [← hg]; exact List.mem_cons_of_mem _ hv') (by rw [he]; exact List.mem_cons_self)
  · have hu' : u ∈ f₂ := by
      rw [← hb, List.dropLast_concat] at hu
      exact hu
    refine hn u (List.mem_cons_of_mem _ (List.mem_append_right _ hu')) fun he => ?_
    exact hne (by rw [he]; simp : u ∈ g₁ ++ [a]) (by rw [← hb]; simp [hu'])
  · obtain ⟨h1, h2⟩ := hmem₂ v hv
    exact hp v (List.mem_append_right _ h1) h2

theorem Linked.between {f₁ f₂ : List N} {h x t : N} (hL : Linked nx pv m (h :: (f₁ ++ x :: (f₂ ++ [t])))) :
    m (pv x) = f₁.getLastD h ∧ m (nx x) = f₂.headD t := by
  obtain ⟨g₁, hg⟩ := exists_concat_getLastD h f₁
  obtain ⟨g₂, hb⟩ := exists_cons_headD f₂ t
  set a := f₁.getLastD h
  set b := f₂.headD t
  rw [hb, ← List.cons_append, hg, List.append_assoc] at hL
  exact hL.neighbours

end Chains
