import Libogc.Lib.Runs
import Libogc.Lib.Words
import Libogc.Lwp.Queue
/-!
# Objmgr — `lwp_objmgr.c` and `lwp_objmgr.inl`

A class of objects is an array of them, a table of those that are open, indexed by id, and a list of those that are not in use.  The
lookups take an id from a user's handle.

`localTable` is the words from `local_table` on.  Those that are not the class's (past the table, or all of them once the table was
freed) hold whatever other code stores there.
-/
namespace Libogc

open Links Runs

inductive ObjQ where
  | inactives
  | temp
  deriving DecidableEq, Repr

/-- What the workspace had for a class: the table and the objects, no table, or no objects. -/
inductive ObjAlloc where
  | both
  | noTable
  | noBlocks
  deriving DecidableEq, Repr

/-- An object is its index in `obj_blocks`; `information` is whether it points to its class. -/
structure Objinfo where
  minId : Nat
  maxId : Nat
  maxNodes : Nat
  inactivesCnt : Nat
  links : Mem ObjQ Nat
  localTable : Nat → Option Nat
  id : Nat → Nat
  information : Nat → Bool
  alloc : ObjAlloc

def lwpObjMaskId (hndl : Nat) : Nat := hndl % 2 ^ 16
def lwpObjMaskType (type : Nat) : Nat := u32 (type * 2 ^ 16)
def lwpObjType (hndl : Nat) : Nat := hndl / 2 ^ 16

/-- The loop of `__lwp_objmgr_initinfo`: the links, and the objects with their ids. -/
def lwpObjmgrInitLoop : Nat → Mem ObjQ Nat × (Nat → Nat) × (Nat → Bool) → Nat → Mem ObjQ Nat × (Nat → Nat) × (Nat → Bool)
  | 0, s, _ => s
  | fuel + 1, s, idx =>
    let got := lwpQueueGetI s.1 .temp
    match got.2 with
    | .node object =>
      lwpObjmgrInitLoop fuel (lwpQueueAppendI got.1 .inactives object, Function.update s.2.1 object idx,
        Function.update s.2.2 object false) (idx + 1)
    | _ => (got.1, s.2)

/-- `__lwp_objmgr_initinfo`, on whatever memory held. -/
def lwpObjmgrInitinfo (links : Mem ObjQ Nat) (words : Nat → Option Nat) (id : Nat → Nat) (information : Nat → Bool) (maxNodes : Nat)
    (alloc : ObjAlloc) : Objinfo :=
  let links := lwpQueueInitEmpty links .inactives
  match alloc with
  | .noTable => ⟨0, 0, maxNodes, 0, links, Function.update words 0 none, id, information, alloc⟩
  | .noBlocks => ⟨0, 0, maxNodes, 0, links, words, id, information, alloc⟩
  | .both =>
    let got := lwpObjmgrInitLoop (maxNodes + 1) (lwpQueueInitialize links .temp (fun i => i) maxNodes, id, information) 0
    ⟨0, 0 + maxNodes, maxNodes, 0 + maxNodes, got.1, fun i => if i < maxNodes then none else words i, got.2.1, got.2.2, alloc⟩

/-- A lookup's reading of `local_table`: the index and the word. -/
def lwpObjmgrRead (info : Objinfo) (id : Nat) : Option (Nat × Option Nat) :=
  if info.maxId ≥ id then some (id, info.localTable id) else none

/-- Whether interrupts are enabled, and how deep dispatching is disabled. -/
structure ObjCpu where
  isrEnabled : Bool
  dispatchDisableLevel : Nat
  deriving DecidableEq, Repr

/-- With the object, interrupts stay disabled, and the level they were at is returned. -/
def lwpObjmgrGetisrdisable (info : Objinfo) (id : Nat) (cpu : ObjCpu) : Option (Nat × Bool) × ObjCpu :=
  match lwpObjmgrRead info id with
  | some (_, some object) => (some (object, cpu.isrEnabled), { cpu with isrEnabled := false })
  | _ => (none, cpu)

def lwpObjmgrGetnoprotection (info : Objinfo) (id : Nat) : Option Nat :=
  match lwpObjmgrRead info id with
  | some (_, some object) => some object
  | _ => none

/-- With the object, dispatching stays disabled. -/
def lwpObjmgrGet (info : Objinfo) (id : Nat) (cpu : ObjCpu) : Option Nat × ObjCpu :=
  match lwpObjmgrRead info id with
  | some (_, some object) => (some object, { cpu with dispatchDisableLevel := cpu.dispatchDisableLevel + 1 })
  | _ => (none, cpu)

def lwpObjmgrAllocate (info : Objinfo) : Objinfo × Option Nat :=
  let got := lwpQueueGetI info.links .inactives
  match got.2 with
  | .node object =>
    ({ info with links := got.1, information := Function.update info.information object true
                 inactivesCnt := u32Pred info.inactivesCnt }, some object)
  | _ => ({ info with links := got.1 }, none)

def lwpObjmgrFree (info : Objinfo) (object : Nat) : Objinfo :=
  { info with links := lwpQueueAppendI info.links .inactives object
              information := Function.update info.information object false
              inactivesCnt := u32 (info.inactivesCnt + 1) }

def lwpObjmgrSetlocal (info : Objinfo) (idx : Nat) (object : Option Nat) : Objinfo :=
  if idx < info.maxNodes then { info with localTable := Function.update info.localTable idx object } else info

def lwpObjmgrOpen (info : Objinfo) (object : Nat) : Objinfo := lwpObjmgrSetlocal info (info.id object) (some object)
def lwpObjmgrClose (info : Objinfo) (object : Nat) : Objinfo := lwpObjmgrSetlocal info (info.id object) none

/-- Other code stores a word. -/
def Objinfo.store (info : Objinfo) (i : Nat) (word : Option Nat) : Objinfo :=
  { info with localTable := Function.update info.localTable i word }

/-- The words that are the class's. -/
def Objinfo.owns (info : Objinfo) (i : Nat) : Bool :=
  match info.alloc with
  | .both => i < info.maxNodes
  | .noTable => i = 0
  | .noBlocks => false

/-- The objects there are. -/
def Objinfo.has (info : Objinfo) (object : Nat) : Bool := info.alloc = .both ∧ object < info.maxNodes

/-! ## A class under any calls -/

structure ObjSys where
  info : Objinfo
  /-- The objects opened and not closed since. -/
  opened : Nat → Bool

inductive ObjEvent where
  | allocate
  | openObj (object : Nat)
  | closeObj (object : Nat)
  | freeObj (object : Nat)
  | store (i : Nat) (word : Option Nat)
  deriving DecidableEq, Repr

def objNext (s : ObjSys) : ObjEvent → ObjSys
  | .allocate => { s with info := (lwpObjmgrAllocate s.info).1 }
  | .openObj object => ⟨lwpObjmgrOpen s.info object, Function.update s.opened object true⟩
  | .closeObj object => ⟨lwpObjmgrClose s.info object, Function.update s.opened object false⟩
  | .freeObj object => { s with info := lwpObjmgrFree s.info object }
  | .store i word => { s with info := s.info.store i word }

def objGuard (s : ObjSys) : ObjEvent → Bool
  | .allocate => true
  | .openObj object | .closeObj object | .freeObj object => s.info.has object
  | .store i _ => !s.info.owns i

def objSystem : System ObjSys ObjEvent where
  enabled s e := objGuard s e = true
  next := objNext

instance (s : ObjSys) (e : ObjEvent) : Decidable (objSystem.enabled s e) := inferInstanceAs (Decidable (_ = _))

/-! ## What a class is after its initialisation -/

/-- Both headers, before and while the objects move from one to the other. -/
def objLists (temp inactives : List Nat) : ObjQ → Option (List Nat)
  | .temp => some temp
  | .inactives => some inactives

theorem objLists_temp (temp inactives xs : List Nat) :
    Function.update (objLists temp inactives) .temp (some xs) = objLists xs inactives := by
  funext q
  cases q <;> rfl

theorem objLists_inactives (temp inactives xs : List Nat) :
    Function.update (objLists temp inactives) .inactives (some xs) = objLists temp xs := by
  funext q
  cases q <;> rfl

theorem lwpObjmgrInitLoop_spec : ∀ (n : Nat) (inactives : List Nat) {fuel idx : Nat} {s : Mem ObjQ Nat × (Nat → Nat) × (Nat → Bool)},
    Rep s.1 (objLists (List.range' idx n) inactives) → n < fuel →
      Rep (lwpObjmgrInitLoop fuel s idx).1 (objLists [] (inactives ++ List.range' idx n)) ∧
        ∀ object, (lwpObjmgrInitLoop fuel s idx).2.1 object =
          if idx ≤ object ∧ object < idx + n then object else s.2.1 object
  | 0, inactives, fuel + 1, idx, s, h, _ => by
    have hgot := lwpQueueGetI_empty h (q := .temp) rfl
    have hloop : lwpObjmgrInitLoop (fuel + 1) s idx = s := by
      unfold lwpObjmgrInitLoop
      rw [hgot]
    rw [hloop, List.range'_zero, List.append_nil]
    exact ⟨h, fun object => (if_neg (by omega)).symm⟩
  | n + 1, inactives, fuel + 1, idx, s, h, hf => by
    rw [List.range'_succ] at h
    have hnd := h.nodup (q := .temp) rfl
    rw [List.nodup_cons] at hnd
    obtain ⟨hrep, hgot⟩ := lwpQueueGetI_cons h (q := .temp) rfl
    have hout := h.free_of_removed (q := .temp) rfl hnd.1 List.mem_cons_self
    rw [objLists_temp] at hrep hout
    have happ := lwpQueueAppendI_rep hrep (q := .inactives) rfl hout
    rw [objLists_inactives] at happ
    have hloop : lwpObjmgrInitLoop (fuel + 1) s idx =
        lwpObjmgrInitLoop fuel (lwpQueueAppendI (lwpQueueGetI s.1 .temp).1 .inactives idx, Function.update s.2.1 idx idx,
          Function.update s.2.2 idx false) (idx + 1) := by
      rw [lwpObjmgrInitLoop]
      simp only [hgot]
    obtain ⟨hrep', hid⟩ := @lwpObjmgrInitLoop_spec n (inactives ++ [idx]) fuel (idx + 1)
      (lwpQueueAppendI (lwpQueueGetI s.1 .temp).1 .inactives idx, Function.update s.2.1 idx idx, Function.update s.2.2 idx false) happ
      (by omega)
    rw [hloop]
    constructor
    · rw [List.range'_succ]
      rwa [List.append_assoc] at hrep'
    · intro object
      rw [hid object]
      dsimp only
      by_cases ho : object = idx
      · subst ho
        rw [if_neg (by omega), if_pos (by omega), Function.update_self]
      · rw [Function.update_of_ne ho]
        by_cases hin : idx + 1 ≤ object ∧ object < idx + 1 + n
        · rw [if_pos hin, if_pos (by omega)]
        · rw [if_neg hin, if_neg (by omega)]

variable {links : Mem ObjQ Nat} {words : Nat → Option Nat} {ids : Nat → Nat} {information : Nat → Bool} {maxNodes : Nat}

/-- **A class that got its memory** has all its objects inactive, numbered in a row. -/
theorem lwpObjmgrInitinfo_both :
    Rep (lwpObjmgrInitinfo links words ids information maxNodes .both).links (objLists [] (List.range maxNodes)) ∧
      ∀ object, object < maxNodes → (lwpObjmgrInitinfo links words ids information maxNodes .both).id object = object := by
  have h1 := lwpQueueInitialize_rep (lwpQueueInitEmpty_rep (Rep.nothing links) .inactives) .temp Function.injective_id (fun i q xs hq hi => by
    by_cases hx : q = .inactives
    · rw [hx, Function.update_self] at hq
      cases hq
      cases hi
    · rw [Function.update_of_ne hx] at hq
      cases hq) maxNodes
  have hlists : Function.update (Function.update (fun _ => none) ObjQ.inactives (some [])) .temp
      (some ((List.range maxNodes).map id)) = objLists (List.range' 0 maxNodes) [] := by
    rw [List.map_id, List.range_eq_range']
    funext q
    cases q <;> rfl
  rw [hlists] at h1
  obtain ⟨hrep, hid⟩ := lwpObjmgrInitLoop_spec maxNodes []
    (s := (lwpQueueInitialize (lwpQueueInitEmpty links .inactives) .temp (fun i => i) maxNodes, ids, information)) h1 (Nat.lt_succ_self _)
  rw [List.nil_append, ← List.range_eq_range'] at hrep
  refine ⟨hrep, fun object ho => ?_⟩
  refine (hid object).trans ?_
  rw [if_pos (by omega)]

end Libogc
