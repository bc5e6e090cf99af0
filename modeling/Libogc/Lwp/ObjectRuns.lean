import Libogc.Lwp.Objects
/-!
# ObjectRuns — each slot open, free or being destroyed

A slot is in one of three places: open in the table, on the list of inactive ones, or closed and not yet freed by a `Destroy`.  A second
`Destroy` of a slot whose first one has yet to close it frees it twice.
-/
namespace Libogc

open Links Runs

/-- The list of a class; the header its initialisation used is gone. -/
def objFree (free : List Nat) : ObjQ → Option (List Nat)
  | .temp => none
  | .inactives => some free

theorem objFree_update (free xs : List Nat) : Function.update (objFree free) .inactives (some xs) = objFree xs := by
  funext q
  cases q <;> rfl

section Inv
variable {T : Type} {s : ObjCalls T} {c : ObjClass} {opened : Nat → Bool} {free rest : List Nat} {object : Nat}

/-- A `Destroy` has closed the slot and not freed it. -/
def ObjCalls.Closed (s : ObjCalls T) (object : Nat) : Prop := ∃ u, s.destroying u = some (object, true)

structure ObjSlots (c : ObjClass) (s : ObjCalls T) (opened : Nat → Bool) (free : List Nat) : Prop where
  rep : Rep s.info.links (objFree free)
  cnt : s.info.inactivesCnt = free.length
  table : ObjTable ⟨s.info, opened⟩
  nodes : s.info.maxNodes = c.maxNodes
  mem : ∀ o ∈ free, s.info.has o = true
  somewhere : ∀ o, s.info.has o = true → opened o = true ∨ o ∈ free ∨ s.Closed o
  openFree : ∀ o, opened o = true → o ∉ free ∧ ¬ s.Closed o
  freeClosed : ∀ o ∈ free, ¬ s.Closed o
  closing : ∀ u o, s.destroying u = some (o, false) → opened o = true
  closed : ∀ u o, s.destroying u = some (o, true) → s.info.has o = true
  one : ∀ u v o b b', s.destroying u = some (o, b) → s.destroying v = some (o, b') → u = v
  live : ∀ o, s.info.has o = true → s.live (s.info.handle c o) = true → o ∉ free

/-! ## Handles and lookups -/

theorem ObjClass.maxNodes_le (c : ObjClass) : c.maxNodes ≤ 64 := by cases c <;> decide

theorem ObjClass.handle_eq (c : ObjClass) {id : Nat} (hid : id < 2 ^ 16) :
    lwpObjMaskType c.objType ||| lwpObjMaskId id = 2 ^ 16 * c.objType + id := by
  have h1 : lwpObjMaskType c.objType = 2 ^ 16 * c.objType := by cases c <;> decide
  have h2 : lwpObjMaskId id = id := Nat.mod_eq_of_lt hid
  rw [h1, h2, Nat.two_pow_add_eq_or_of_lt hid]

variable {o : Nat} {info : Objinfo} {t : T}

theorem ObjSlots.handle_inj (h : ObjSlots c s opened free) {o' : Nat} (ho : s.info.has o = true) (ho' : s.info.has o' = true)
    (he : s.info.handle c o = s.info.handle c o') : o = o' := by
  obtain ⟨ha, hlt⟩ := Objinfo.has_iff.1 ho
  obtain ⟨-, hlt'⟩ := Objinfo.has_iff.1 ho'
  have hle := c.maxNodes_le
  have hnodes := h.nodes
  unfold Objinfo.handle at he
  rw [h.table.id ha o hlt, h.table.id ha o' hlt', c.handle_eq (by omega), c.handle_eq (by omega)] at he
  omega

/-- A lookup that stays below the table's end finds the open object of its id. -/
theorem ObjTable.found {s : ObjSys} (h : ObjTable s) {id : Nat} (hid : id ≠ s.info.maxId) (hf : lwpObjmgrFound s.info id = some o) :
    s.opened o = true := by
  rcases Nat.lt_or_gt_of_ne hid with hlt | hgt
  · by_cases ha : s.info.alloc = .both
    · have hmax := h.maxId
      rw [if_pos ha] at hmax
      rw [lwpObjmgrFound, lwpObjmgrRead_le s.info (Nat.le_of_lt hlt)] at hf
      have hf' : s.info.localTable id = some o := hf
      rw [h.table ha id (hmax ▸ hlt)] at hf'
      split at hf'
      · next hopen =>
        cases hf'
        exact hopen
      · cases hf'
    · have hmax := h.maxId
      rw [if_neg ha] at hmax
      omega
  · rw [lwpObjmgrFound, lwpObjmgrRead_gt s.info hgt] at hf
    cases hf

theorem Objinfo.length_le (hnd : free.Nodup) (hmem : ∀ o ∈ free, info.has o = true) : free.length ≤ info.maxNodes := by
  have hsub : free ⊆ List.range info.maxNodes := fun o ho => List.mem_range.2 (Objinfo.has_iff.1 (hmem o ho)).2
  have hle := (List.subperm_of_subset hnd hsub).length_le
  rwa [List.length_range] at hle

theorem ObjSlots.length_le (h : ObjSlots c s opened free) : free.length ≤ 64 := by
  have hle := Objinfo.length_le (h.rep.nodup (q := .inactives) rfl) h.mem
  rw [h.nodes] at hle
  exact hle.trans c.maxNodes_le

/-! ## Init -/

theorem lwpObjmgrAllocate_nil (h : Rep info.links (objFree [])) : lwpObjmgrAllocate info = (info, none) := by
  have hgot := lwpQueueGetI_empty h (q := .inactives) rfl
  unfold lwpObjmgrAllocate
  rw [hgot]

/-- An object leaves the list. -/
def Objinfo.taken (info : Objinfo) (object : Nat) : Objinfo :=
  { info with links := (lwpQueueGetI info.links .inactives).1
              information := Function.update info.information object true
              inactivesCnt := u32Pred info.inactivesCnt }

theorem lwpObjmgrAllocate_cons (h : Rep info.links (objFree (object :: rest))) :
    lwpObjmgrAllocate info = (info.taken object, some object) ∧ Rep (info.taken object).links (objFree rest) := by
  obtain ⟨hrep, hgot⟩ := lwpQueueGetI_cons h (q := .inactives) rfl
  rw [objFree_update] at hrep
  refine ⟨?_, hrep⟩
  unfold lwpObjmgrAllocate
  dsimp only
  rw [hgot]
  rfl

theorem lwpObjmgrSetlocal_rest (info : Objinfo) (idx : Nat) (word : Option Nat) :
    (lwpObjmgrSetlocal info idx word).links = info.links ∧ (lwpObjmgrSetlocal info idx word).inactivesCnt = info.inactivesCnt ∧
      (lwpObjmgrSetlocal info idx word).shape = info.shape := by
  unfold lwpObjmgrSetlocal
  split <;> exact ⟨rfl, rfl, rfl⟩

theorem Objinfo.has_of_shape {info' : Objinfo} (h : info'.shape = info.shape) : info'.has = info.has := by
  simp only [Objinfo.shape, Prod.mk.injEq] at h
  funext o
  unfold Objinfo.has
  rw [h.2.1, h.2.2.2]

theorem Objinfo.handle_of_shape {info' : Objinfo} (h : info'.shape = info.shape) (c : ObjClass) : info'.handle c = info.handle c := by
  simp only [Objinfo.shape, Prod.mk.injEq] at h
  funext o
  unfold Objinfo.handle
  rw [h.2.2.1]

theorem u32Pred_succ (n : Nat) : u32Pred (n + 1) = n := by simp [u32Pred]

theorem ObjSlots.take (h : ObjSlots c s opened (object :: rest)) :
    ObjSlots c { s with info := lwpObjmgrOpen (s.info.taken object) object
                        live := Function.update s.live (s.info.handle c object) true } (Function.update opened object true) rest := by
  have hnd := h.rep.nodup (q := .inactives) rfl
  rw [List.nodup_cons] at hnd
  have hhas := h.mem object List.mem_cons_self
  have hnot := h.freeClosed object List.mem_cons_self
  obtain ⟨hl, hc, hs⟩ := lwpObjmgrSetlocal_rest (s.info.taken object) ((s.info.taken object).id object) (some object)
  have hshape : (lwpObjmgrOpen (s.info.taken object) object).shape = s.info.shape := hs
  have hhas' : (lwpObjmgrOpen (s.info.taken object) object).has = s.info.has := Objinfo.has_of_shape hshape
  have htaken : ObjTable ⟨s.info.taken object, opened⟩ := h.table.congr rfl rfl
  refine ⟨?_, ?_, htaken.setlocal hhas true, (congrArg (·.2.1) hshape).trans h.nodes, fun o ho => ?_, fun o ho => ?_, fun o ho => ?_,
    fun o ho => h.freeClosed o (List.mem_cons_of_mem _ ho), fun u o hu => ?_, fun u o hu => ?_, h.one, fun o ho hlive => ?_⟩
  · exact hl ▸ (lwpObjmgrAllocate_cons h.rep).2
  · refine hc.trans ?_
    show u32Pred s.info.inactivesCnt = rest.length
    rw [h.cnt, List.length_cons, u32Pred_succ]
  · rw [hhas']
    exact h.mem o (List.mem_cons_of_mem _ ho)
  · rw [hhas'] at ho
    by_cases hoo : o = object
    · rw [hoo, Function.update_self]
      exact Or.inl rfl
    · rw [Function.update_of_ne hoo]
      rcases h.somewhere o ho with h1 | h1 | h1
      · exact Or.inl h1
      · exact Or.inr (Or.inl ((List.mem_cons.1 h1).resolve_left hoo))
      · exact Or.inr (Or.inr h1)
  · by_cases hoo : o = object
    · rw [hoo]
      exact ⟨hnd.1, hnot⟩
    · rw [Function.update_of_ne hoo] at ho
      exact ⟨fun hm => (h.openFree o ho).1 (List.mem_cons_of_mem _ hm), (h.openFree o ho).2⟩
  · by_cases hoo : o = object
    · rw [hoo, Function.update_self]
    · rw [Function.update_of_ne hoo]
      exact h.closing u o hu
  · rw [hhas']
    exact h.closed u o hu
  · rw [hhas'] at ho
    intro hm
    have hlive' : Function.update s.live (s.info.handle c object) true ((lwpObjmgrOpen (s.info.taken object) object).handle c o) =
        true := hlive
    rw [Objinfo.handle_of_shape hshape] at hlive'
    by_cases hoo : o = object
    · subst hoo
      exact hnd.1 hm
    · rw [Function.update_of_ne fun e => hoo (h.handle_inj ho hhas e)] at hlive'
      exact h.live o ho hlive' (List.mem_cons_of_mem _ hm)

/-! ## Destroy -/

theorem ObjSlots.destroy [DecidableEq T] (h : ObjSlots c s opened free) (ht : s.destroying t = none) (ho : opened object = true)
    (hone : ∀ u, s.destroying u ≠ some (object, false)) :
    ObjSlots c { s with destroying := Function.update s.destroying t (some (object, false)) } opened free := by
  have hother : ∀ u o, Function.update s.destroying t (some (object, false)) u = some (o, true) ↔ s.destroying u = some (o, true) := by
    intro u o
    by_cases hu : u = t
    · rw [hu, Function.update_self, ht]
      simp
    · rw [Function.update_of_ne hu]
  have hclosed : ∀ o, ObjCalls.Closed { s with destroying := Function.update s.destroying t (some (object, false)) } o ↔ s.Closed o :=
    fun o => exists_congr fun u => hother u o
  have hnew : ∀ u b, s.destroying u ≠ some (object, b) := by
    intro u b hu
    cases b with
    | false => exact hone u hu
    | true => exact (h.openFree object ho).2 ⟨u, hu⟩
  refine ⟨h.rep, h.cnt, h.table, h.nodes, h.mem, fun o hs => ?_, fun o hs => ?_, fun o hs => ?_, fun u o hu => ?_, fun u o hu => ?_,
    fun u v o b b' hu hv => ?_, h.live⟩
  · rw [hclosed]
    exact h.somewhere o hs
  · rw [hclosed]
    exact h.openFree o hs
  · rw [hclosed]
    exact h.freeClosed o hs
  · by_cases hut : u = t
    · rw [hut] at hu
      dsimp only at hu
      rw [Function.update_self] at hu
      cases hu
      exact ho
    · dsimp only at hu
      rw [Function.update_of_ne hut] at hu
      exact h.closing u o hu
  · exact h.closed u o ((hother u o).1 hu)
  · dsimp only at hu hv
    by_cases hut : u = t <;> by_cases hvt : v = t
    · rw [hut, hvt]
    · rw [hut, Function.update_self] at hu
      rw [Function.update_of_ne hvt] at hv
      cases hu
      exact absurd hv (hnew v b')
    · rw [hvt, Function.update_self] at hv
      rw [Function.update_of_ne hut] at hu
      cases hv
      exact absurd hu (hnew u b)
    · rw [Function.update_of_ne hut] at hu
      rw [Function.update_of_ne hvt] at hv
      exact h.one u v o b b' hu hv

theorem ObjSlots.close [DecidableEq T] (h : ObjSlots c s opened free) (ht : s.destroying t = some (object, false)) :
    ObjSlots c { s with info := lwpObjmgrClose s.info object, destroying := Function.update s.destroying t (some (object, true)) }
      (Function.update opened object false) free := by
  have ho := h.closing t object ht
  have hhas : s.info.has object = true := h.table.opened object ho
  obtain ⟨hl, hc, hs⟩ := lwpObjmgrSetlocal_rest s.info (s.info.id object) none
  have hhas' : (lwpObjmgrClose s.info object).has = s.info.has := Objinfo.has_of_shape hs
  have hclosed : ∀ o, (∃ u, Function.update s.destroying t (some (object, true)) u = some (o, true)) ↔ o = object ∨ s.Closed o := by
    intro o
    constructor
    · rintro ⟨u, hu⟩
      by_cases hut : u = t
      · rw [hut, Function.update_self] at hu
        cases hu
        exact Or.inl rfl
      · rw [Function.update_of_ne hut] at hu
        exact Or.inr ⟨u, hu⟩
    · rintro (rfl | ⟨u, hu⟩)
      · exact ⟨t, Function.update_self ..⟩
      · refine ⟨u, ?_⟩
        rw [Function.update_of_ne]
        · exact hu
        · rintro rfl
          rw [ht] at hu
          cases hu
  have hback : ∀ u o b, Function.update s.destroying t (some (object, true)) u = some (o, b) → u = t ∧ o = object ∨
      u ≠ t ∧ s.destroying u = some (o, b) := by
    intro u o b hu
    by_cases hut : u = t
    · rw [hut, Function.update_self] at hu
      cases hu
      exact Or.inl ⟨hut, rfl⟩
    · rw [Function.update_of_ne hut] at hu
      exact Or.inr ⟨hut, hu⟩
  refine ⟨hl ▸ h.rep, hc.trans h.cnt, h.table.setlocal hhas false, (congrArg (·.2.1) hs).trans h.nodes, fun o hm => ?_, fun o hm => ?_,
    fun o hm => ?_, fun o hm => ?_, fun u o hu => ?_, fun u o hu => ?_, fun u v o b b' hu hv => ?_, fun o hm hlive => ?_⟩
  · rw [hhas']
    exact h.mem o hm
  · rw [hhas'] at hm
    by_cases hoo : o = object
    · exact Or.inr (Or.inr ((hclosed o).2 (Or.inl hoo)))
    · rw [Function.update_of_ne hoo]
      exact (h.somewhere o hm).imp_right fun h1 => h1.imp_right fun h2 => (hclosed o).2 (Or.inr h2)
  · have hoo : o ≠ object := by
      rintro rfl
      rw [Function.update_self] at hm
      cases hm
    rw [Function.update_of_ne hoo] at hm
    exact ⟨(h.openFree o hm).1, fun hcl => ((hclosed o).1 hcl).elim hoo (h.openFree o hm).2⟩
  · intro hcl
    rcases (hclosed o).1 hcl with rfl | hcl
    · exact (h.openFree o ho).1 hm
    · exact h.freeClosed o hm hcl
  · rcases hback u o false hu with ⟨hut, -⟩ | ⟨hut, hu'⟩
    · rw [hut] at hu
      dsimp only at hu
      rw [Function.update_self] at hu
      cases hu
    · have hoo : o ≠ object := by
        rintro rfl
        exact hut (h.one u t o false false hu' ht)
      rw [Function.update_of_ne hoo]
      exact h.closing u o hu'
  · rw [hhas']
    rcases hback u o true hu with ⟨-, rfl⟩ | ⟨-, hu'⟩
    · exact hhas
    · exact h.closed u o hu'
  · rcases hback u o b hu with ⟨rfl, rfl⟩ | ⟨hut, hu'⟩ <;> rcases hback v _ b' hv with ⟨rfl, hvo⟩ | ⟨hvt, hv'⟩
    · rfl
    · exact absurd (h.one _ _ _ _ _ hv' ht) hvt
    · subst hvo
      exact h.one _ _ _ _ _ hu' ht
    · exact h.one _ _ _ _ _ hu' hv'
  · rw [hhas'] at hm
    have hshape : (lwpObjmgrClose s.info object).shape = s.info.shape := hs
    have hlive' : s.live ((lwpObjmgrClose s.info object).handle c o) = true := hlive
    rw [Objinfo.handle_of_shape hshape] at hlive'
    exact h.live o hm hlive'

theorem lwpObjmgrFree_rep (h : Rep info.links (objFree free)) (hn : object ∉ free) :
    Rep (lwpObjmgrFree info object).links (objFree (free ++ [object])) := by
  have hout : Free (objFree free) object := by
    intro q xs hq
    cases q with
    | temp => cases hq
    | inactives =>
      cases hq
      exact hn
  have happ := lwpQueueAppendI_rep h (q := .inactives) rfl hout
  rwa [objFree_update] at happ

theorem ObjSlots.freed [DecidableEq T] (h : ObjSlots c s opened free) (ht : s.destroying t = some (object, true)) :
    ObjSlots c { s with info := lwpObjmgrFree s.info object, destroying := Function.update s.destroying t none
                        live := Function.update s.live (s.info.handle c object) false } opened (free ++ [object]) := by
  have hhas := h.closed t object ht
  have hnot : object ∉ free := fun hm => h.freeClosed object hm ⟨t, ht⟩
  have hback : ∀ u o b, Function.update s.destroying t none u = some (o, b) → u ≠ t ∧ s.destroying u = some (o, b) := by
    intro u o b hu
    by_cases hut : u = t
    · rw [hut, Function.update_self] at hu
      cases hu
    · rw [Function.update_of_ne hut] at hu
      exact ⟨hut, hu⟩
  have hclosed : ∀ o, (∃ u, Function.update s.destroying t none u = some (o, true)) ↔ o ≠ object ∧ s.Closed o := by
    intro o
    constructor
    · rintro ⟨u, hu⟩
      obtain ⟨hut, hu'⟩ := hback u o true hu
      refine ⟨?_, u, hu'⟩
      rintro rfl
      exact hut (h.one u t o true true hu' ht)
    · rintro ⟨hoo, u, hu⟩
      refine ⟨u, ?_⟩
      rw [Function.update_of_ne]
      · exact hu
      · rintro rfl
        rw [ht] at hu
        cases hu
        exact hoo rfl
  refine ⟨lwpObjmgrFree_rep h.rep hnot, ?_, h.table.congr rfl rfl, h.nodes, fun o hm => ?_, fun o hm => ?_, fun o hm => ?_, fun o hm => ?_,
    fun u o hu => h.closing u o (hback u o false hu).2, fun u o hu => h.closed u o (hback u o true hu).2,
    fun u v o b b' hu hv => h.one u v o b b' (hback u o b hu).2 (hback v o b' hv).2, fun o hm hlive => ?_⟩
  · have hlt := h.length_le
    show u32 (s.info.inactivesCnt + 1) = (free ++ [object]).length
    rw [h.cnt, List.length_append, List.length_singleton, u32_of_lt (by omega)]
  · rcases List.mem_append.1 hm with hm | hm
    · exact h.mem o hm
    · rw [List.mem_singleton.1 hm]
      exact hhas
  · by_cases hoo : o = object
    · exact Or.inr (Or.inl (by rw [hoo]; simp))
    · rcases h.somewhere o hm with h1 | h1 | h1
      · exact Or.inl h1
      · exact Or.inr (Or.inl (List.mem_append_left _ h1))
      · exact Or.inr (Or.inr ((hclosed o).2 ⟨hoo, h1⟩))
  · obtain ⟨h1, h2⟩ := h.openFree o hm
    refine ⟨fun hmem => ?_, fun hcl => h2 ((hclosed o).1 hcl).2⟩
    rcases List.mem_append.1 hmem with hmem | hmem
    · exact h1 hmem
    · rw [List.mem_singleton.1 hmem] at h2
      exact h2 ⟨t, ht⟩
  · intro hcl
    obtain ⟨hoo, hcl⟩ := (hclosed o).1 hcl
    rcases List.mem_append.1 hm with hm | hm
    · exact h.freeClosed o hm hcl
    · exact hoo (List.mem_singleton.1 hm)
  · intro hmem
    have hlive' : Function.update s.live (s.info.handle c object) false (s.info.handle c o) = true := hlive
    by_cases hoo : o = object
    · rw [hoo, Function.update_self] at hlive'
      cases hlive'
    · rw [Function.update_of_ne fun e => hoo (h.handle_inj hm hhas e)] at hlive'
      rcases List.mem_append.1 hmem with hmem | hmem
      · exact h.live o hm hlive' hmem
      · exact hoo (List.mem_singleton.1 hmem)

/-- A message box whose buffers cannot be had goes back at once, to the end of the list. -/
theorem ObjSlots.giveBack (h : ObjSlots c s opened (object :: rest)) :
    ObjSlots c { s with info := lwpObjmgrFree (lwpObjmgrClose (lwpObjmgrOpen (s.info.taken object) object) object) object }
      (Function.update (Function.update opened object true) object false) (rest ++ [object]) := by
  have hnd := h.rep.nodup (q := .inactives) rfl
  rw [List.nodup_cons] at hnd
  have hhas := h.mem object List.mem_cons_self
  have hmem : ∀ o, o ∈ rest ++ [object] ↔ o ∈ object :: rest := by
    intro o
    rw [List.mem_append, List.mem_singleton, List.mem_cons, or_comm]
  have hopen : ∀ o, Function.update (Function.update opened object true) object false o = opened o := by
    intro o
    by_cases hoo : o = object
    · rw [hoo, Function.update_self]
      cases ho : opened object with
      | false => rfl
      | true => exact absurd List.mem_cons_self (h.openFree object ho).1
    · rw [Function.update_of_ne hoo, Function.update_of_ne hoo]
  have htake := h.take
  obtain ⟨hl, hc, hs⟩ := lwpObjmgrSetlocal_rest (lwpObjmgrOpen (s.info.taken object) object)
    ((lwpObjmgrOpen (s.info.taken object) object).id object) none
  have hs1 : (lwpObjmgrOpen (s.info.taken object) object).shape = s.info.shape := (lwpObjmgrSetlocal_rest ..).2.2
  have hshape : (lwpObjmgrFree (lwpObjmgrClose (lwpObjmgrOpen (s.info.taken object) object) object) object).shape = s.info.shape :=
    hs.trans hs1
  have hhas1 : (lwpObjmgrOpen (s.info.taken object) object).has object = true := (Objinfo.has_of_shape hs1).symm ▸ hhas
  have hhas' : (lwpObjmgrFree (lwpObjmgrClose (lwpObjmgrOpen (s.info.taken object) object) object) object).has = s.info.has :=
    Objinfo.has_of_shape hshape
  have htable := htake.table.setlocal hhas1 false
  refine ⟨lwpObjmgrFree_rep (hl ▸ htake.rep) hnd.1, ?_, htable.congr rfl rfl, (congrArg (·.2.1) hshape).trans h.nodes, fun o hm => ?_,
    fun o hm => ?_, fun o hm => ?_, fun o hm => ?_, fun u o hu => ?_, fun u o hu => ?_, h.one, fun o hm hlive => ?_⟩
  · have hlt := h.length_le
    show u32 ((lwpObjmgrClose (lwpObjmgrOpen (s.info.taken object) object) object).inactivesCnt + 1) = (rest ++ [object]).length
    rw [List.length_cons] at hlt
    rw [show (lwpObjmgrClose (lwpObjmgrOpen (s.info.taken object) object) object).inactivesCnt = rest.length from hc.trans htake.cnt,
      List.length_append, List.length_singleton, u32_of_lt (by omega)]
  · rw [hhas']
    exact h.mem o ((hmem o).1 hm)
  · rw [hhas'] at hm
    rw [hopen, hmem]
    exact h.somewhere o hm
  · rw [hopen] at hm
    rw [hmem]
    exact h.openFree o hm
  · exact h.freeClosed o ((hmem o).1 hm)
  · rw [hopen]
    exact h.closing u o hu
  · rw [hhas']
    exact h.closed u o hu
  · rw [hhas'] at hm
    have hlive' : s.live ((lwpObjmgrFree (lwpObjmgrClose (lwpObjmgrOpen (s.info.taken object) object) object) object).handle c o) = true :=
      hlive
    rw [Objinfo.handle_of_shape hshape] at hlive'
    rw [hmem]
    exact h.live o hm hlive'

/-! ## Steps and runs -/

theorem lwpObjectAllocate_nil (h : Rep info.links (objFree [])) : lwpObjectAllocate info = (info, none) := by
  unfold lwpObjectAllocate
  rw [lwpObjmgrAllocate_nil h]

theorem lwpObjectAllocate_cons (h : Rep info.links (objFree (object :: rest))) :
    lwpObjectAllocate info = (lwpObjmgrOpen (info.taken object) object, some object) := by
  unfold lwpObjectAllocate
  rw [(lwpObjmgrAllocate_cons h).1]

/-- **What an Init does**: nothing without a slot, else it takes the first and returns its handle, or gives it back. -/
theorem lwpObjectInit_cases (h : ObjSlots c s opened free) (buffers : Bool) :
    (free = [] ∧ lwpObjectInit c s buffers = (s, none)) ∨ ∃ object rest, free = object :: rest ∧
      (lwpObjectInit c s buffers =
          ({ s with info := lwpObjmgrFree (lwpObjmgrClose (lwpObjmgrOpen (s.info.taken object) object) object) object }, none) ∨
        lwpObjectInit c s buffers =
          ({ s with info := lwpObjmgrOpen (s.info.taken object) object
                    live := Function.update s.live (s.info.handle c object) true }, some (s.info.handle c object))) := by
  unfold lwpObjectInit
  cases free with
  | nil =>
    rw [lwpObjectAllocate_nil h.rep]
    exact Or.inl ⟨rfl, rfl⟩
  | cons object rest =>
    have hs1 : (lwpObjmgrOpen (s.info.taken object) object).shape = s.info.shape := (lwpObjmgrSetlocal_rest ..).2.2
    rw [lwpObjectAllocate_cons h.rep]
    refine Or.inr ⟨object, rest, rfl, ?_⟩
    dsimp only
    split
    · exact Or.inl rfl
    · rw [Objinfo.handle_of_shape hs1]
      exact Or.inr rfl

theorem ObjSlots.init (h : ObjSlots c s opened free) (buffers : Bool) :
    ∃ opened' free', ObjSlots c (lwpObjectInit c s buffers).1 opened' free' := by
  rcases lwpObjectInit_cases h buffers with ⟨-, he⟩ | ⟨object, rest, rfl, he | he⟩ <;> rw [he]
  · exact ⟨opened, free, h⟩
  · exact ⟨_, _, h.giveBack⟩
  · exact ⟨_, _, h.take⟩

theorem ObjSlots.step [DecidableEq T] (h : ObjSlots c s opened free) {e : ObjCall T}
    (he : ((objCallSystem c).restrict (objCallQuiet c)).enabled s e) : ∃ opened' free', ObjSlots c (objCallNext c s e) opened' free' := by
  obtain ⟨hg, hq⟩ := he
  have hg' : objCallGuard s e = true := hg
  cases e with
  | init buffers => exact h.init buffers
  | destroy t hndl busy =>
    show ∃ opened' free', ObjSlots c (lwpObjectDestroy c s t hndl busy) opened' free'
    unfold lwpObjectDestroy
    cases hd : lwpObjectDestroys c s.info hndl busy with
    | none => exact ⟨opened, free, h⟩
    | some object =>
      obtain ⟨hid, hone⟩ := hq object hd
      have ho : opened object = true := by
        unfold lwpObjectDestroys lwpObjectOpen at hd
        split at hd
        · cases hd
        · split at hd
          · cases hd
          · rw [lwpObjmgrGet_fst] at hd
            exact h.table.found hid hd
      exact ⟨opened, free, h.destroy (Option.isNone_iff_eq_none.1 hg') ho hone⟩
  | close t =>
    show ∃ opened' free', ObjSlots c (lwpObjectClose s t) opened' free'
    unfold lwpObjectClose
    split
    · next object ht => exact ⟨_, free, h.close ht⟩
    · exact ⟨opened, free, h⟩
  | free t =>
    show ∃ opened' free', ObjSlots c (lwpObjectFree c s t) opened' free'
    unfold lwpObjectFree
    split
    · next object ht => exact ⟨opened, _, h.freed ht⟩
    · exact ⟨opened, free, h⟩
  | store i word =>
    have hi : s.info.owns i = false := by simpa [objCallGuard] using hg'
    exact ⟨opened, free, ⟨h.rep, h.cnt, h.table.store hi word, h.nodes, h.mem, h.somewhere, h.openFree, h.freeClosed, h.closing,
      h.closed, h.one, h.live⟩⟩

theorem objCallStart_slots (c : ObjClass) (links : Mem ObjQ Nat) (words : Nat → Option Nat) (ids : Nat → Nat)
    (information : Nat → Bool) (alloc : ObjAlloc) :
    ∃ free, ObjSlots c (objCallStart (T := T) c links words ids information alloc) (fun _ => false) free := by
  have htable := lwpObjmgrInitinfo_table links words ids information c.maxNodes alloc
  have h0 : Rep (lwpQueueInitEmpty links .inactives) (objFree []) := by
    have h1 := lwpQueueInitEmpty_rep (Rep.nothing links) ObjQ.inactives
    have hlists : Function.update (fun _ => none) ObjQ.inactives (some []) = objFree [] := by
      funext q
      cases q <;> rfl
    rwa [hlists] at h1
  cases alloc with
  | both =>
    have hrep := (@lwpObjmgrInitinfo_both links words ids information c.maxNodes).1.forget .temp
    have hlists : Function.update (objLists [] (List.range c.maxNodes)) .temp none = objFree (List.range c.maxNodes) := by
      funext q
      cases q <;> rfl
    rw [hlists] at hrep
    refine ⟨List.range c.maxNodes, hrep, ?_, htable, rfl, fun o ho => ?_, fun o ho => ?_, (fun o e => by cases e), fun o _ => ?_,
      (fun u o e => by cases e), (fun u o e => by cases e), (fun u v o b b' e => by cases e), fun o _ e => by cases e⟩
    · rw [List.length_range]
      exact Nat.zero_add _
    · exact Objinfo.has_iff.2 ⟨rfl, List.mem_range.1 ho⟩
    · exact Or.inr (Or.inl (List.mem_range.2 (Objinfo.has_iff.1 ho).2))
    · rintro ⟨u, hu⟩
      cases hu
  | noTable =>
    refine ⟨[], h0, rfl, htable, rfl, (fun o e => by cases e), (fun o e => by cases e), (fun o e => by cases e), (fun o e => by cases e),
      (fun u o e => by cases e), (fun u o e => by cases e), (fun u v o b b' e => by cases e), fun o e => by cases e⟩
  | noBlocks =>
    refine ⟨[], h0, rfl, htable, rfl, (fun o e => by cases e), (fun o e => by cases e), (fun o e => by cases e), (fun o e => by cases e),
      (fun u o e => by cases e), (fun u o e => by cases e), (fun u v o b b' e => by cases e), fun o e => by cases e⟩

/-! ## The accounting -/

/-- A slot is open: at its own entry and no other. -/
def Objinfo.OpenOnce (info : Objinfo) (object : Nat) : Prop :=
  ∃! i, i < info.maxNodes ∧ info.localTable i = some object

/-- **The slots are accounted for**: the inactive ones are a list without repetition, of the length the class believes; but for those being
destroyed every slot is on it or open once, and not both; and an `Init` returns no handle that is in use. -/
structure ObjSound (c : ObjClass) (s : ObjCalls T) (free : List Nat) : Prop where
  linked : IsQueue s.info.links .inactives free
  once : free.Nodup
  slots : ∀ o ∈ free, s.info.has o = true
  cnt : s.info.inactivesCnt = free.length
  place : ∀ o, s.info.has o = true → (∀ u b, s.destroying u ≠ some (o, b)) → Xor (s.info.OpenOnce o) (o ∈ free)
  fresh : ∀ buffers hndl, (lwpObjectInit c s buffers).2 = some hndl → s.live hndl = false

theorem ObjSlots.openOnce_iff (h : ObjSlots c s opened free) (ho : s.info.has o = true) : s.info.OpenOnce o ↔ opened o = true := by
  obtain ⟨ha, hlt⟩ := Objinfo.has_iff.1 ho
  have hentry : ∀ i, i < s.info.maxNodes → (s.info.localTable i = some o ↔ i = o ∧ opened o = true) := by
    intro i hi
    have ht := h.table.table ha i hi
    dsimp only at ht
    rw [ht]
    split
    · next hop =>
      constructor
      · intro e
        cases e
        exact ⟨rfl, hop⟩
      · rintro ⟨rfl, -⟩
        rfl
    · next hop =>
      constructor
      · exact fun e => by cases e
      · rintro ⟨rfl, e⟩
        exact absurd e hop
  constructor
  · rintro ⟨i, ⟨hi, he⟩, -⟩
    exact ((hentry i hi).1 he).2
  · intro hop
    exact ⟨o, ⟨hlt, (hentry o hlt).2 ⟨rfl, hop⟩⟩, fun i hi => ((hentry i hi.1).1 hi.2).1⟩

theorem ObjSlots.sound (h : ObjSlots c s opened free) : ObjSound c s free := by
  refine ⟨h.rep.linked rfl, h.rep.nodup (q := .inactives) rfl, h.mem, h.cnt, fun o ho hd => ?_, fun buffers hndl he => ?_⟩
  · rw [h.openOnce_iff ho]
    rcases h.somewhere o ho with h1 | h1 | ⟨u, hu⟩
    · exact Or.inl ⟨h1, (h.openFree o h1).1⟩
    · exact Or.inr ⟨h1, fun h2 => (h.openFree o h2).1 h1⟩
    · exact absurd hu (hd u true)
  · rcases lwpObjectInit_cases h buffers with ⟨-, hi⟩ | ⟨object, rest, rfl, hi | hi⟩ <;> rw [hi] at he
    · cases he
    · cases he
    · cases he
      cases hl : s.live (s.info.handle c object) with
      | false => rfl
      | true => exact absurd List.mem_cons_self (h.live object (h.mem object List.mem_cons_self) hl)

/-- **The slots of a class**, on every run in which no `Destroy` opens a slot that another is about to close. -/
theorem object_slots [DecidableEq T] {links : Mem ObjQ Nat} {words : Nat → Option Nat} {ids : Nat → Nat} {information : Nat → Bool}
    {alloc : ObjAlloc} {es : List (ObjCall T)}
    (hl : ((objCallSystem c).restrict (objCallQuiet c)).Legal (objCallStart c links words ids information alloc) es) :
    ∃ free, ObjSound c ((objCallSystem c).run (objCallStart c links words ids information alloc) es) free := by
  obtain ⟨free, h0⟩ := objCallStart_slots (T := T) c links words ids information alloc
  obtain ⟨opened, free', h⟩ := hl.invariant (I := fun s : ObjCalls T => ∃ opened free, ObjSlots c s opened free)
    (fun _ _ ⟨_, _, hs⟩ he => hs.step he) ⟨_, _, h0⟩
  exact ⟨free', h.sound⟩

end Inv

/-- The semaphores, on memory that was cleared. -/
def semaSlots : ObjCalls (Fin 2) := objCallStart .sema (fun _ => .null) (fun _ => none) (fun _ => 0) (fun _ => false) .both

/-- Two semaphores, one destroyed while the other thread makes a third and destroys the second. -/
theorem object_slots_sample : ∃ free, ObjSound .sema ((objCallSystem .sema).run semaSlots
    [.init true, .init true, .destroy 0 0x40000 false, .init true, .destroy 1 0x40001 false, .close 1, .close 0, .free 0, .free 1,
      .init true]) free := by
  apply object_slots
  decide +kernel

/-- Two threads destroy one semaphore: it is on the list twice, and the class believes it has 65 free slots of 64. -/
theorem object_slots_destroy_twice : ∃ es, (objCallSystem .sema).Legal semaSlots es ∧
    ¬ ∃ free, ObjSound .sema ((objCallSystem .sema).run semaSlots es) free := by
  refine ⟨[.init true, .destroy 0 0x40000 false, .destroy 1 0x40000 false, .close 1, .free 1, .close 0, .free 0], by decide +kernel, ?_⟩
  obtain ⟨s, hs⟩ : ∃ s, s = (objCallSystem .sema).run semaSlots
      [.init true, .destroy 0 0x40000 false, .destroy 1 0x40000 false, .close 1, .free 1, .close 0, .free 0] := ⟨_, rfl⟩
  obtain ⟨hcnt, hmax⟩ : s.info.inactivesCnt = 65 ∧ s.info.maxNodes = 64 := by rw [hs]; decide +kernel
  rw [← hs]
  rintro ⟨free, h⟩
  have hle := Objinfo.length_le h.once h.slots
  rw [← h.cnt, hcnt, hmax] at hle
  omega

end Libogc
