import Libogc.Lwp.Objmgr
/-!
# ObjmgrRuns — what a lookup finds

The table of a class holds its open objects, each at its id.  A lookup admits one id more than the table has entries, and a class that
did not get its memory keeps a table, the word of a null pointer or the memory that was freed.
-/
namespace Libogc

open Links Runs

/-- What stays as it was initialised. -/
def Objinfo.shape (info : Objinfo) : Nat × Nat × (Nat → Nat) × ObjAlloc := (info.maxId, info.maxNodes, info.id, info.alloc)

/-- **The table holds exactly the open objects.** -/
structure ObjTable (s : ObjSys) : Prop where
  maxId : s.info.maxId = if s.info.alloc = .both then s.info.maxNodes else 0
  id : s.info.alloc = .both → ∀ object, object < s.info.maxNodes → s.info.id object = object
  opened : ∀ object, s.opened object = true → s.info.has object = true
  table : s.info.alloc = .both → ∀ i, i < s.info.maxNodes → s.info.localTable i = if s.opened i then some i else none
  null : s.info.alloc = .noTable → s.info.localTable 0 = none

section Table
variable {s : ObjSys} {info : Objinfo}

theorem Objinfo.has_iff {object : Nat} : info.has object = true ↔ info.alloc = .both ∧ object < info.maxNodes := decide_eq_true_iff

theorem lwpObjmgrAllocate_table (info : Objinfo) : (lwpObjmgrAllocate info).1.shape = info.shape ∧
    (lwpObjmgrAllocate info).1.localTable = info.localTable := by
  unfold lwpObjmgrAllocate
  rcases lwpQueueGetI info.links .inactives with ⟨m, l⟩
  cases l <;> exact ⟨rfl, rfl⟩

theorem ObjTable.congr (h : ObjTable s) (hs : info.shape = s.info.shape) (ht : info.localTable = s.info.localTable) :
    ObjTable { s with info := info } := by
  simp only [Objinfo.shape, Prod.mk.injEq] at hs
  obtain ⟨h1, h2, h3, h4⟩ := hs
  have hhas : ∀ object, info.has object = s.info.has object := by
    intro object
    unfold Objinfo.has
    rw [h4, h2]
  refine ⟨?_, ?_, ?_, ?_, ?_⟩
  · show info.maxId = if info.alloc = .both then info.maxNodes else 0
    rw [h1, h2, h4]
    exact h.maxId
  · show info.alloc = .both → ∀ object, object < info.maxNodes → info.id object = object
    rw [h2, h3, h4]
    exact h.id
  · intro object ho
    exact (hhas object).trans (h.opened object ho)
  · show info.alloc = .both → ∀ i, i < info.maxNodes → info.localTable i = if s.opened i then some i else none
    rw [h2, h4, ht]
    exact h.table
  · show info.alloc = .noTable → info.localTable 0 = none
    rw [h4, ht]
    exact h.null

theorem ObjTable.setlocal (h : ObjTable s) {object : Nat} (ho : s.info.has object = true) (b : Bool) :
    ObjTable ⟨lwpObjmgrSetlocal s.info (s.info.id object) (if b then some object else none), Function.update s.opened object b⟩ := by
  obtain ⟨halloc, hlt⟩ := Objinfo.has_iff.1 ho
  unfold lwpObjmgrSetlocal
  rw [h.id halloc object hlt, if_pos hlt]
  refine ⟨h.maxId, h.id, fun i hi => ?_, fun ha i hi => ?_, fun ha => ?_⟩
  · by_cases hio : i = object
    · rw [hio]
      exact ho
    · have hi' : Function.update s.opened object b i = true := hi
      rw [Function.update_of_ne hio] at hi'
      exact h.opened i hi'
  · by_cases hio : i = object
    · subst hio
      simp only [Function.update_self]
    · simp only [Function.update_of_ne hio]
      exact h.table halloc i hi
  · have ha' : s.info.alloc = .noTable := ha
    rw [halloc] at ha'
    cases ha'

theorem ObjTable.store (h : ObjTable s) {i : Nat} (hi : s.info.owns i = false) (word : Option Nat) :
    ObjTable { s with info := s.info.store i word } := by
  refine ⟨h.maxId, h.id, h.opened, fun ha j hj => ?_, fun ha => ?_⟩
  · have hne : j ≠ i := by
      rintro rfl
      have ha' : s.info.alloc = .both := ha
      have hj' : j < s.info.maxNodes := hj
      simp [Objinfo.owns, ha', hj'] at hi
    exact (Function.update_of_ne hne ..).trans (h.table ha j hj)
  · have hne : (0 : Nat) ≠ i := by
      rintro rfl
      have ha' : s.info.alloc = .noTable := ha
      simp [Objinfo.owns, ha'] at hi
    exact (Function.update_of_ne hne ..).trans (h.null ha)

theorem ObjTable.step (h : ObjTable s) {e : ObjEvent} (he : objSystem.enabled s e) : ObjTable (objNext s e) := by
  have hg : objGuard s e = true := he
  cases e with
  | allocate =>
    obtain ⟨h1, h2⟩ := lwpObjmgrAllocate_table s.info
    exact h.congr h1 h2
  | openObj object => exact h.setlocal hg true
  | closeObj object => exact h.setlocal hg false
  | freeObj object => exact h.congr rfl rfl
  | store i word =>
    apply h.store
    simpa [objGuard] using hg

theorem lwpObjmgrInitinfo_table (links : Mem ObjQ Nat) (words : Nat → Option Nat) (ids : Nat → Nat) (information : Nat → Bool)
    (maxNodes : Nat) (alloc : ObjAlloc) :
    ObjTable ⟨lwpObjmgrInitinfo links words ids information maxNodes alloc, fun _ => false⟩ := by
  cases alloc with
  | both =>
    refine ⟨Nat.zero_add _, fun _ => lwpObjmgrInitinfo_both.2, (fun _ e => by cases e), fun _ i hi => if_pos hi, (fun e => by cases e)⟩
  | noTable => exact ⟨rfl, (fun e => by cases e), (fun _ e => by cases e), (fun e => by cases e), fun _ => by simp [lwpObjmgrInitinfo]⟩
  | noBlocks => exact ⟨rfl, (fun e => by cases e), (fun _ e => by cases e), (fun e => by cases e), (fun e => by cases e)⟩

end Table

/-- **A lookup that is safe**: it reads the table below `max_nodes`, and each of the three finds an object exactly when an object of the
class with that id is open. -/
structure ObjSafe (s : ObjSys) (id : Nat) : Prop where
  index : ∀ r, lwpObjmgrRead s.info id = some r → r.1 < s.info.maxNodes
  get : ∀ cpu, (lwpObjmgrGet s.info id cpu).1 ≠ none ↔ ∃ object, s.opened object = true ∧ s.info.id object = id
  getisrdisable : ∀ cpu, (lwpObjmgrGetisrdisable s.info id cpu).1 ≠ none ↔ ∃ object, s.opened object = true ∧ s.info.id object = id
  getnoprotection : lwpObjmgrGetnoprotection s.info id ≠ none ↔ ∃ object, s.opened object = true ∧ s.info.id object = id

/-- **The id is not the one past the last**, or it is 0, of a class without its memory whose table has a null word there. -/
def objHandleOk (info : Objinfo) (id : Nat) : Prop :=
  id ≠ info.maxId ∨ info.alloc ≠ .both ∧ 0 < info.maxNodes ∧ info.localTable 0 = none

section Lookup
variable {s : ObjSys} {id : Nat}

/-- The word a lookup returns. -/
def lwpObjmgrFound (info : Objinfo) (id : Nat) : Option Nat := (lwpObjmgrRead info id).bind (·.2)

theorem lwpObjmgrGet_fst (info : Objinfo) (id : Nat) (cpu : ObjCpu) : (lwpObjmgrGet info id cpu).1 = lwpObjmgrFound info id := by
  unfold lwpObjmgrGet lwpObjmgrFound
  rcases lwpObjmgrRead info id with _ | ⟨i, _ | w⟩ <;> rfl

theorem lwpObjmgrGetnoprotection_eq (info : Objinfo) (id : Nat) : lwpObjmgrGetnoprotection info id = lwpObjmgrFound info id := by
  unfold lwpObjmgrGetnoprotection lwpObjmgrFound
  rcases lwpObjmgrRead info id with _ | ⟨i, _ | w⟩ <;> rfl

theorem lwpObjmgrGetisrdisable_ne_none (info : Objinfo) (id : Nat) (cpu : ObjCpu) :
    (lwpObjmgrGetisrdisable info id cpu).1 ≠ none ↔ lwpObjmgrFound info id ≠ none := by
  unfold lwpObjmgrGetisrdisable lwpObjmgrFound
  rcases lwpObjmgrRead info id with _ | ⟨i, _ | w⟩ <;> simp

theorem objSafe_iff : ObjSafe s id ↔ (∀ r, lwpObjmgrRead s.info id = some r → r.1 < s.info.maxNodes) ∧
    (lwpObjmgrFound s.info id ≠ none ↔ ∃ object, s.opened object = true ∧ s.info.id object = id) := by
  constructor
  · intro h
    exact ⟨h.index, lwpObjmgrGetnoprotection_eq s.info id ▸ h.getnoprotection⟩
  · rintro ⟨h1, h2⟩
    refine ⟨h1, fun cpu => ?_, fun cpu => ?_, ?_⟩
    · rw [lwpObjmgrGet_fst]
      exact h2
    · rw [lwpObjmgrGetisrdisable_ne_none]
      exact h2
    · rw [lwpObjmgrGetnoprotection_eq]
      exact h2

theorem lwpObjmgrRead_le (info : Objinfo) (h : id ≤ info.maxId) : lwpObjmgrRead info id = some (id, info.localTable id) := if_pos h

theorem lwpObjmgrRead_gt (info : Objinfo) (h : info.maxId < id) : lwpObjmgrRead info id = none := if_neg (Nat.not_le_of_lt h)

/-- In a class with its memory, every id but the one past the last is safe, and that one is not. -/
theorem ObjTable.safe_both (h : ObjTable s) (ha : s.info.alloc = .both) : ObjSafe s id ↔ id ≠ s.info.maxId := by
  have hmax : s.info.maxId = s.info.maxNodes := by rw [h.maxId, if_pos ha]
  have hopen : ∀ object, s.opened object = true → object < s.info.maxNodes ∧ s.info.id object = object := by
    intro object ho
    have hlt := (Objinfo.has_iff.1 (h.opened object ho)).2
    exact ⟨hlt, h.id ha object hlt⟩
  rw [objSafe_iff]
  constructor
  · rintro ⟨hindex, -⟩ rfl
    have := hindex _ (lwpObjmgrRead_le s.info (Nat.le_refl _))
    dsimp only at this
    omega
  · intro hne
    rcases Nat.lt_or_gt_of_ne hne with hlt | hgt
    · have hread := lwpObjmgrRead_le s.info (Nat.le_of_lt hlt)
      have hid : id < s.info.maxNodes := hmax ▸ hlt
      rw [lwpObjmgrFound, hread]
      refine ⟨fun r hr => ?_, ?_⟩
      · cases hr
        exact hid
      · show s.info.localTable id ≠ none ↔ _
        rw [h.table ha id hid]
        constructor
        · intro hn
          cases ho : s.opened id with
          | true => exact ⟨id, ho, h.id ha id hid⟩
          | false => rw [ho] at hn; exact absurd rfl hn
        · rintro ⟨object, ho, hobj⟩
          rw [(hopen object ho).2] at hobj
          rw [← hobj, ho]
          exact Option.some_ne_none object
    · rw [lwpObjmgrFound, lwpObjmgrRead_gt s.info hgt]
      refine ⟨(fun r hr => by cases hr), fun hn => absurd rfl hn, ?_⟩
      rintro ⟨object, ho, hobj⟩
      have := hopen object ho
      omega

theorem ObjTable.safe_none (h : ObjTable s) (ha : s.info.alloc ≠ .both) :
    ObjSafe s id ↔ id ≠ 0 ∨ 0 < s.info.maxNodes ∧ s.info.localTable 0 = none := by
  have hmax : s.info.maxId = 0 := by rw [h.maxId, if_neg ha]
  have hopen : ¬ ∃ object, s.opened object = true ∧ s.info.id object = id := by
    rintro ⟨object, ho, -⟩
    exact ha (Objinfo.has_iff.1 (h.opened object ho)).1
  rw [objSafe_iff]
  by_cases hid : id = 0
  · subst hid
    rw [lwpObjmgrFound, lwpObjmgrRead_le s.info (Nat.zero_le _)]
    constructor
    · rintro ⟨hindex, hfound⟩
      refine Or.inr ⟨hindex _ rfl, ?_⟩
      by_contra hn
      exact hopen (hfound.1 hn)
    · rintro (hne | ⟨hlt, hnull⟩)
      · exact absurd rfl hne
      · refine ⟨fun r hr => ?_, fun hn => absurd hnull hn, fun ho => absurd ho hopen⟩
        cases hr
        exact hlt
  · rw [lwpObjmgrFound, lwpObjmgrRead_gt s.info (by omega)]
    exact ⟨fun _ => Or.inl hid, fun _ => ⟨(fun r hr => by cases hr), fun hn => absurd rfl hn, fun ho => absurd ho hopen⟩⟩

theorem ObjTable.safe_iff (h : ObjTable s) : ObjSafe s id ↔ objHandleOk s.info id := by
  unfold objHandleOk
  by_cases ha : s.info.alloc = .both
  · rw [h.safe_both ha]
    simp [ha]
  · have hmax : s.info.maxId = 0 := by rw [h.maxId, if_neg ha]
    rw [h.safe_none ha, hmax]
    simp [ha]

end Lookup

/-- **The lookup of a handle**, after any calls on its class, is safe exactly for the ids it ought to admit. -/
theorem objmgr_lookup {links : Mem ObjQ Nat} {words : Nat → Option Nat} {ids : Nat → Nat} {information : Nat → Bool}
    {maxNodes : Nat} {alloc : ObjAlloc} {es : List ObjEvent}
    (hl : objSystem.Legal ⟨lwpObjmgrInitinfo links words ids information maxNodes alloc, fun _ => false⟩ es) (hndl : Nat) :
    let s := objSystem.run ⟨lwpObjmgrInitinfo links words ids information maxNodes alloc, fun _ => false⟩ es
    ObjSafe s (lwpObjMaskId hndl) ↔ objHandleOk s.info (lwpObjMaskId hndl) :=
  (hl.invariant (I := ObjTable) (fun _ _ hs he => hs.step he)
    (lwpObjmgrInitinfo_table links words ids information maxNodes alloc)).safe_iff

/-- A semaphore's class of two, one of them open, and a handle no semaphore was given. -/
theorem objmgr_lookup_sample :
    let s := objSystem.run ⟨lwpObjmgrInitinfo (fun _ => .null) (fun _ => some 7) (fun _ => 9) (fun _ => true) 2 .both, fun _ => false⟩
      [.allocate, .openObj 0, .allocate, .openObj 1, .closeObj 0, .freeObj 0, .store 2 none]
    ObjSafe s (lwpObjMaskId (lwpObjMaskType 4 + 5)) ↔ objHandleOk s.info (lwpObjMaskId (lwpObjMaskType 4 + 5)) := by
  apply objmgr_lookup
  decide +kernel

/-- The handle of type 4 and id 64 reads past the table of 64 semaphores, and finds what lies there. -/
theorem objmgr_lookup_past_end :
    let s : ObjSys := ⟨lwpObjmgrInitinfo (fun _ => .null) (fun _ => some 7) (fun _ => 9) (fun _ => true) 64 .both, fun _ => false⟩
    lwpObjType 0x40040 = 4 ∧ (lwpObjmgrRead s.info (lwpObjMaskId 0x40040)).map (·.1) = some 64 ∧
      lwpObjmgrGetnoprotection s.info (lwpObjMaskId 0x40040) = some 7 ∧ ¬ ObjSafe s (lwpObjMaskId 0x40040) := by
  intro s
  have hread : lwpObjmgrRead s.info (lwpObjMaskId 0x40040) = some (64, some 7) := rfl
  refine ⟨rfl, by rw [hread]; rfl, by rw [lwpObjmgrGetnoprotection, hread], fun h => ?_⟩
  exact absurd (h.index _ hread) (by decide)

end Libogc
