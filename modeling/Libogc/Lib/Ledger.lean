import Mathlib.Data.List.Nodup
/-!
# Ledger — what is allocated and what is freed

The events of an allocator, replayed on the list of the blocks that are live.  A replay stops at a block that is handed out twice, and at
a free of one that is not live; one that begins and ends with nothing live has freed every block once.
-/
namespace Ledger

inductive Event (K : Type) where
  | alloc (k : K)
  | free (k : K)
  deriving DecidableEq, Repr

variable {K : Type} [DecidableEq K] {es : List (Event K)} {k : K} {ks ks' : List K}

/-- The blocks that are live after some events. -/
def replay : List K → List (Event K) → Option (List K)
  | live, [] => some live
  | live, .alloc k :: es => if k ∈ live then none else replay (k :: live) es
  | live, .free k :: es => if k ∈ live then replay (live.erase k) es else none

/-- **Every block was freed once**, after it was allocated, and no other block was. -/
def Settled (es : List (Event K)) : Prop := replay [] es = some []

instance (es : List (Event K)) : Decidable (Settled es) := inferInstanceAs (Decidable (_ = _))

/-- Just the blocks `ks` are live after the events. -/
def Holds (es : List (Event K)) (ks : List K) : Prop := ∃ live, replay [] es = some live ∧ ks.Perm live

theorem replay_append (live : List K) (es es' : List (Event K)) :
    replay live (es ++ es') = (replay live es).bind fun l => replay l es' := by
  induction es generalizing live with
  | nil => rfl
  | cons e es ih =>
    cases e with
    | alloc k =>
      rw [List.cons_append, replay, replay]
      split
      · rfl
      · exact ih _
    | free k =>
      rw [List.cons_append, replay, replay]
      split
      · exact ih _
      · rfl

theorem Holds.nil : Holds ([] : List (Event K)) [] := ⟨[], rfl, List.Perm.refl _⟩

theorem Holds.perm (h : Holds es ks) (hp : ks'.Perm ks) : Holds es ks' :=
  h.imp fun _ hl => ⟨hl.1, hp.trans hl.2⟩

theorem Holds.alloc (h : Holds es ks) (hk : k ∉ ks) : Holds (es ++ [.alloc k]) (k :: ks) := by
  obtain ⟨live, hr, hp⟩ := h
  refine ⟨k :: live, ?_, hp.cons k⟩
  rw [replay_append, hr]
  exact if_neg fun hm => hk (hp.mem_iff.2 hm)

theorem Holds.free (h : Holds es (k :: ks)) : Holds (es ++ [.free k]) ks := by
  obtain ⟨live, hr, hp⟩ := h
  refine ⟨live.erase k, ?_, ?_⟩
  · rw [replay_append, hr]
    exact if_pos (hp.subset List.mem_cons_self)
  · have := hp.erase k
    rwa [List.erase_cons_head] at this

theorem Holds.frees (h : Holds es (ks ++ ks')) : Holds (es ++ ks.map .free) ks' := by
  induction ks generalizing es with
  | nil =>
    rw [List.map_nil, List.append_nil]
    exact h
  | cons k ks ih =>
    have := ih h.free
    rwa [List.append_assoc] at this

theorem Holds.settled_iff (h : Holds es ks) : Settled es ↔ ks = [] := by
  obtain ⟨live, hr, hp⟩ := h
  constructor
  · intro hs
    obtain rfl : live = [] := Option.some.inj (hr.symm.trans hs)
    exact hp.eq_nil
  · rintro rfl
    exact hr.trans (congrArg some (List.nil_perm.1 hp))

end Ledger
