import Libogc.Lib.Locking
import Libogc.Lwp.MutexRuns
/-!
# SmbLock — the mutex of a share

What the calls of the SMB device do with the mutex of their share, as programs: a request to the server, or an access to the caches, is
asked for, and one that is asked for may be several.  The mutex is not recursive, and what `LWP_MutexLock` and `LWP_MutexUnlock` return is
not looked at.

A read that fails reconnects while it has the mutex.  `smbCheckConnection` cannot lock it again, but it unlocks it.
-/
namespace Libogc

open Locks Runs

/-- What the mutex guards. -/
inductive SmbRequest where
  | reconnect
  | pathInfo
  | openFile
  | closeFile
  | findFirst
  | findNext
  | findClose
  | createDirectory
  | deleteDirectory
  | deleteFile
  | rename
  | diskInformation
  | disconnect
  | flush
  | read
  | write
  | clear
  deriving DecidableEq, Repr

abbrev SmbProg := Prog SmbRequest

/-! ## The calls -/

namespace SmbLock

/-- `smbCheckConnection`, and what follows. -/
def smbCheckConnection (k : Bool → SmbProg) : SmbProg := .lock <| .ask .reconnect fun ok => .unlock (k ok)

/-- A call that is refused, or goes on. -/
def smbFound (p : SmbProg) : SmbProg := .test fun found => if found then p else .done

/-- A call that makes one request. -/
def smbRequest (r : SmbRequest) : SmbProg := .lock <| .ask r fun _ => .unlock .done

/-- A call that makes a second request if the first one goes well. -/
def smbRequests (r r' : SmbRequest) : SmbProg :=
  .lock <| .ask r fun ok => if ok then .ask r' fun _ => .unlock .done else .unlock .done

def smbOpen : SmbProg :=
  smbFound <| smbCheckConnection fun ok =>
    if ok then .lock <| .ask .pathInfo fun _ => .test fun known => if known then .ask .openFile fun _ => .unlock .done else .unlock .done
    else .done

def smbSeek : SmbProg := smbFound (smbRequest .flush)

/-- `retry_reconnect`, with `cnt_retry` tries left. -/
def smbRetry : Nat → SmbProg
  | 0 => .unlock .done
  | cnt_retry + 1 => smbCheckConnection fun ok =>
    if ok then
      .ask .clear fun _ => .ask .openFile fun opened =>
        if opened then .ask .read fun ok => if ok then .unlock .done else smbRetry cnt_retry
        else .unlock .done
    else smbRetry cnt_retry

def smbRead : SmbProg :=
  smbFound <| .lock <| .ask .flush fun _ => .test fun inside =>
    if inside then .ask .read fun ok => if ok then .unlock .done else smbRetry 2
    else .unlock .done

def smbWrite : SmbProg := smbFound (smbRequest .write)

def smbCloseFile : SmbProg := .lock <| .ask .flush fun _ => .ask .clear fun _ => .ask .closeFile fun _ => .unlock .done

def smbChdir : SmbProg := smbFound <| smbCheckConnection fun ok => if ok then smbRequest .pathInfo else .done

def smbDirreset : SmbProg := .lock <| .ask .findClose fun _ => .ask .findFirst fun _ => .unlock .done

def smbDiropen : SmbProg :=
  smbFound <| smbCheckConnection fun ok =>
    if ok then .test fun root => if root then smbRequest .findFirst else smbRequests .pathInfo .findFirst
    else .done

def smbDirnext : SmbProg :=
  smbFound <| .lock <| .test fun first =>
    if first then .unlock .done
    else .ask .findNext fun ok => .test fun dots => if ok && dots then .ask .findNext fun _ => .unlock .done else .unlock .done

def smbDirclose : SmbProg := smbRequest .findClose

def smbStat : SmbProg := smbFound <| .test fun last => if last then .done else smbRequest .pathInfo

def smbMkdir : SmbProg := smbFound (smbRequest .createDirectory)

def smbRmdir : SmbProg := smbFound (smbRequest .deleteDirectory)

def smbUnlink : SmbProg := smbFound (smbRequest .deleteFile)

def smbRename : SmbProg := smbFound (smbRequest .rename)

def smbStatvfs : SmbProg := smbFound (smbRequest .diskInformation)

/-- `smbClose` of the share. -/
def smbCloseShare : SmbProg := smbFound (smbRequest .disconnect)

/-- A round of `process_cache_thread`, which looks at the time of the write cache first. -/
def processCacheThread : SmbProg := smbFound (smbRequest .flush)

end SmbLock

inductive SmbCall where
  | «open»
  | seek
  | read
  | write
  | close
  | chdir
  | dirreset
  | diropen
  | dirnext
  | dirclose
  | stat
  | mkdir
  | rmdir
  | unlink
  | rename
  | statvfs
  | closeShare
  | checkConnection
  | cacheThread
  deriving DecidableEq, Repr

def SmbCall.prog : SmbCall → SmbProg
  | .open => SmbLock.smbOpen
  | .seek => SmbLock.smbSeek
  | .read => SmbLock.smbRead
  | .write => SmbLock.smbWrite
  | .close => SmbLock.smbCloseFile
  | .chdir => SmbLock.smbChdir
  | .dirreset => SmbLock.smbDirreset
  | .diropen => SmbLock.smbDiropen
  | .dirnext => SmbLock.smbDirnext
  | .dirclose => SmbLock.smbDirclose
  | .stat => SmbLock.smbStat
  | .mkdir => SmbLock.smbMkdir
  | .rmdir => SmbLock.smbRmdir
  | .unlink => SmbLock.smbUnlink
  | .rename => SmbLock.smbRename
  | .statvfs => SmbLock.smbStatvfs
  | .closeShare => SmbLock.smbCloseShare
  | .checkConnection => SmbLock.smbCheckConnection fun _ => .done
  | .cacheThread => SmbLock.processCacheThread

/-- Any threads, with any calls in any order. -/
def smbLockSystem (T : Type) [DecidableEq T] : System (Users T SmbCall SmbRequest) (UserEvent T SmbCall) := userSystem SmbCall.prog

instance (T : Type) [DecidableEq T] [Fintype T] (s : Users T SmbCall SmbRequest) (e : UserEvent T SmbCall) :
    Decidable ((smbLockSystem T).enabled s e) := inferInstanceAs (Decidable (s.Enabled e))

/-- A share that was mounted; `LWP_MutexInit` has made the mutex, or not. -/
def smbLockStart (T : Type) (created : Bool) : Users T SmbCall SmbRequest := userStart !created

/-- **No read gets its connection back**: what a read that has failed does is in vain. -/
def SmbUnbroken : SmbCall → SmbRequest → Bool → Prop
  | .read, .reconnect, ok => ok = false
  | _, _, _ => True

instance (c : SmbCall) (r : SmbRequest) (ok : Bool) : Decidable (SmbUnbroken c r ok) := by
  unfold SmbUnbroken
  split <;> infer_instance

/-! ## The programs -/

namespace SmbLock
variable {allowed : SmbRequest → Bool → Prop} {held : Bool}

theorem safe_request (r : SmbRequest) : (smbRequest r).Safe allowed held := ⟨rfl, fun _ _ => rfl⟩

theorem safe_requests (r r' : SmbRequest) : (smbRequests r r').Safe allowed held := by
  refine ⟨rfl, fun ok _ => ?_⟩
  cases ok with
  | false => rfl
  | true => exact ⟨rfl, fun _ _ => rfl⟩

theorem safe_found {p : SmbProg} (h : p.Safe allowed false) : (smbFound p).Safe allowed false := by
  intro found
  cases found with
  | false => rfl
  | true => exact h

theorem safe_check {k : Bool → SmbProg} (h : ∀ ok, allowed .reconnect ok → (k ok).Safe allowed false) :
    (smbCheckConnection k).Safe allowed held := ⟨rfl, h⟩

theorem safe_retry (n : Nat) : ∀ held, (smbRetry n).Safe (SmbUnbroken .read) held := by
  induction n with
  | zero => exact fun _ => rfl
  | succ n ih =>
    intro held
    refine safe_check fun ok hok => ?_
    obtain rfl : ok = false := hok
    exact ih false

theorem safe_read : smbRead.Safe (SmbUnbroken .read) false := by
  refine safe_found ⟨rfl, fun _ _ inside => ?_⟩
  cases inside with
  | false => rfl
  | true =>
    refine ⟨rfl, fun ok _ => ?_⟩
    cases ok with
    | false => exact safe_retry 2 true
    | true => rfl

theorem safe_open : smbOpen.Safe allowed false := by
  refine safe_found (safe_check fun ok _ => ?_)
  cases ok with
  | false => rfl
  | true =>
    refine ⟨rfl, fun _ _ known => ?_⟩
    cases known with
    | false => rfl
    | true => exact ⟨rfl, fun _ _ => rfl⟩

theorem safe_chdir : smbChdir.Safe allowed false := by
  refine safe_found (safe_check fun ok _ => ?_)
  cases ok with
  | false => rfl
  | true => exact safe_request _

theorem safe_diropen : smbDiropen.Safe allowed false := by
  refine safe_found (safe_check fun ok _ => ?_)
  cases ok with
  | false => rfl
  | true =>
    intro root
    cases root with
    | false => exact safe_requests _ _
    | true => exact safe_request _

theorem safe_dirnext : smbDirnext.Safe allowed false := by
  refine safe_found fun first => ?_
  cases first with
  | true => rfl
  | false =>
    refine ⟨rfl, fun ok _ dots => ?_⟩
    dsimp only
    split
    · exact ⟨rfl, fun _ _ => rfl⟩
    · rfl

theorem safe_stat : smbStat.Safe allowed false := by
  refine safe_found fun last => ?_
  cases last with
  | false => exact safe_request _
  | true => rfl

/-- **Every call is safe**, a read as long as it does not get its connection back. -/
theorem safe_prog (c : SmbCall) : c.prog.Safe (SmbUnbroken c) false := by
  cases c with
  | «open» => exact safe_open
  | read => exact safe_read
  | close => exact ⟨rfl, fun _ _ => ⟨rfl, fun _ _ => ⟨rfl, fun _ _ => rfl⟩⟩⟩
  | chdir => exact safe_chdir
  | dirreset => exact ⟨rfl, fun _ _ => ⟨rfl, fun _ _ => rfl⟩⟩
  | diropen => exact safe_diropen
  | dirnext => exact safe_dirnext
  | dirclose => exact safe_request _
  | stat => exact safe_stat
  | checkConnection => exact safe_check fun _ _ => rfl
  | seek | write | mkdir | rmdir | unlink | rename | statvfs | closeShare | cacheThread => exact safe_found (safe_request _)

end SmbLock

/-! ## The kernel's mutex -/

section Kernel
variable {T W : Type} [DecidableEq T] [DecidableEq W] {C : Type} {s : Users T C SmbRequest} {k : Kernel T W} {m : LwpMutex T}

/-- The mutex as the kernel has it. -/
structure ShowsMutex (m : LwpMutex T) (owner : Option T) : Prop where
  attrs : m.attrs = mutexAttr false
  holder : m.holder = owner
  lock : m.lock = if owner.isSome then .locked else .unlocked
  nestCnt : m.nestCnt = if owner.isSome then 1 else 0

/-- `_SMB_lock` is the seize of the kernel: who has the mutex gets an error and goes on, who does not may have to wait. -/
theorem take_seize (hg : s.lock.gone = false) (hw : s.lock.phase k.executing ≠ .waiting)
    (hm : ShowsMutex m s.lock.holder) :
    ShowsMutex (lwpMutexSeizeIrqTrylock k m).2.1 (s.take k.executing).holder ∧
      ((lwpMutexSeizeIrqTrylock k m).2.2 = true ↔ (s.take k.executing).phase k.executing = .waiting) := by
  have hlock := hm.lock
  have hattrs := hm.attrs
  have hholder := hm.holder
  have hgone : ¬ s.lock.gone = true := by
    rw [hg]
    exact Bool.false_ne_true
  unfold Users.take lwpMutexSeizeIrqTrylock
  rw [if_neg hgone]
  cases hh : s.lock.holder with
  | none =>
    rw [hh] at hlock
    have hfree : m.lock ≠ .locked := by
      rw [hlock]
      show MutexLock.unlocked ≠ .locked
      decide
    have hnoceil : m.attrs.mode ≠ .priorityceil := by
      rw [hattrs]
      decide
    rw [if_pos hfree, if_pos hnoceil]
    refine ⟨⟨hattrs, rfl, rfl, rfl⟩, fun hno => ?_, fun hphase => ?_⟩
    · cases hno
    · have hin : (s.lock.take k.executing).phase k.executing = .inside := s.lock.set_phase ..
      rw [hin] at hphase
      cases hphase
  | some u =>
    rw [hh] at hlock hholder
    have htaken : ¬ m.lock ≠ .locked := not_not_intro hlock
    rw [if_neg htaken, hholder, hattrs]
    dsimp only
    by_cases hu : u = k.executing
    · rw [if_pos hu, if_pos (congrArg some hu)]
      refine ⟨hh ▸ hm, fun hno => ?_, fun hphase => absurd hphase hw⟩
      cases hno
    · rw [if_neg hu, if_neg fun heq => hu (Option.some.inj heq), s.lock.set_phase]
      exact ⟨hm, fun _ => rfl, fun _ => rfl⟩

/-- `_SMB_unlock` is the surrender of the kernel: the queue says who gets the mutex of its holder, and another thread releases nothing. -/
theorem release_surrender (hm : ShowsMutex m s.lock.holder) :
    (s.lock.holder = some k.executing → (lwpMutexRelease k m).2.2 = none ∧
      ∀ w, ShowsMutex (lwpMutexHandover (lwpMutexRelease k m).1 (lwpMutexRelease k m).2.1 w).2
        (s.release k.executing (lwpThreadqueueDequeue (lwpMutexRelease k m).1 w).2).holder) ∧
    (s.lock.holder ≠ some k.executing → lwpMutexRelease k m = (k, m, some mutexNotowner) ∧
      ∀ next, s.release k.executing next = s.lock) := by
  constructor
  · intro hh
    have hnest := hm.nestCnt
    rw [hh] at hnest
    have hcounts : m.attrs.counts = true := by
      rw [hm.attrs]
      decide
    obtain ⟨k', hk'⟩ : ∃ k', lwpMutexRelease k m = (k', { m with nestCnt := 0, holder := none }, none) :=
      ⟨_, lwpMutexRelease_last k (hm.holder.trans hh) hnest hcounts⟩
    rw [hk']
    refine ⟨rfl, fun w => ?_⟩
    unfold lwpMutexHandover Users.release
    rw [if_pos hh]
    dsimp only
    cases hq : lwpThreadqueueDequeue k' w with
    | mk k'' next =>
      have hlock := hm.lock
      rw [hh] at hlock
      cases next with
      | none => exact ⟨hm.attrs, rfl, rfl, rfl⟩
      | some u => exact ⟨hm.attrs, rfl, hlock, rfl⟩
  · intro hh
    refine ⟨lwpMutexRelease_notowner k ?_ fun heq => hh (hm.holder.symm.trans heq), fun next => if_neg hh⟩
    rw [hm.attrs]
    rfl

end Kernel

/-- **Whoever sends a request, or touches the caches, holds the mutex**, and nobody else does: in every run of any threads in which no read
gets its connection back. -/
theorem smb_lock_held (T : Type) [DecidableEq T] {es : List (UserEvent T SmbCall)}
    (hl : ((smbLockSystem T).restrict (Users.Allowed · SmbUnbroken)).Legal (smbLockStart T true) es) {t : T}
    (ht : ((smbLockSystem T).run (smbLockStart T true) es).asks t = true) :
    ((smbLockSystem T).run (smbLockStart T true) es).lock.holder = some t ∧
      ∀ u, ((smbLockSystem T).run (smbLockStart T true) es).asks u = true → u = t := by
  have hholder := asks_holder SmbLock.safe_prog hl ht
  refine ⟨hholder, fun u hu => ?_⟩
  have hother := asks_holder SmbLock.safe_prog hl hu
  exact Option.some.inj (hother.symm.trans hholder)

/-- A read that fails and tries to reconnect in vain; a write that waits for the mutex gets it then. -/
theorem smb_lock_held_retry :
    ((smbLockSystem Bool).run (smbLockStart Bool true)
        [.start true .read, .step true true none, .step true false none, .step true true none, .step true true none,
          .start false .write, .step false true none, .step false false none, .step true false (some false), .step true false (some false),
          .step true false (some false), .step true false (some false)]).lock.holder = some false ∧
      ∀ u, ((smbLockSystem Bool).run (smbLockStart Bool true)
          [.start true .read, .step true true none, .step true false none, .step true true none, .step true true none,
            .start false .write, .step false true none, .step false false none,
            .step true false (some false), .step true false (some false),
            .step true false (some false), .step true false (some false)]).asks u = true →
        u = false :=
  smb_lock_held Bool (by decide) (by decide)

/-- A read that has its connection back sends a request beside that of a write. -/
theorem smb_lock_lost :
    (smbLockSystem Bool).Legal (smbLockStart Bool true)
        [.start true .read, .step true true none, .step true false none, .step true true none, .step true true none,
          .start false .write, .step false true none, .step false false none, .step true false (some false), .step true false (some false),
          .step true true (some false), .step true false (some false)] ∧
      ((smbLockSystem Bool).run (smbLockStart Bool true)
          [.start true .read, .step true true none, .step true false none, .step true true none, .step true true none,
            .start false .write, .step false true none, .step false false none,
            .step true false (some false), .step true false (some false),
            .step true true (some false), .step true false (some false)]).lock.holder = some false ∧
      ((smbLockSystem Bool).run (smbLockStart Bool true)
          [.start true .read, .step true true none, .step true false none, .step true true none, .step true true none,
            .start false .write, .step false true none, .step false false none,
            .step true false (some false), .step true false (some false),
            .step true true (some false), .step true false (some false)]).asks false = true ∧
      ((smbLockSystem Bool).run (smbLockStart Bool true)
          [.start true .read, .step true true none, .step true false none, .step true true none, .step true true none,
            .start false .write, .step false true none, .step false false none,
            .step true false (some false), .step true false (some false),
            .step true true (some false), .step true false (some false)]).asks true = true := by
  decide

end Libogc
