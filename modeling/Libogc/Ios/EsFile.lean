import Libogc.Lib.Locks
import Libogc.Lib.Runs
import Libogc.Lib.Words
/-!
# EsFile — the files of `es.c`

`_ES_read_r`, `_ES_seek_r`, `_ES_fstat_r` and `_ES_close_r` take the file's mutex, look at the descriptor and call the firmware.  They may
be called by any threads; a thread is between two steps wherever it waits for the mutex or for an answer.  What is read, and what `fstat`
reports, is left out.

The mutex is not recursive, and it is handed to a thread that waits for it.
-/
namespace Libogc

open Locks Runs

def ES_READ_BUF_SIZE : Nat := 65536

inductive EsErrno where
  | ebadf
  | eio
  | enomem
  | einval
  deriving DecidableEq, Repr

inductive EsCall where
  | read (ptr len : Nat)
  | seek
  | fstat
  | close
  deriving DecidableEq, Repr

/-- Where a thread is: `unlocking` has the result, and whether `LWP_MutexDestroy` follows. -/
inductive EsPc where
  | idle
  | locking (c : EsCall)
  | waiting (c : EsCall)
  | locked (c : EsCall)
  | allocating (len : Nat)
  | reading (buffered : Bool) (len read : Nat)
  | seeking
  | closing
  | unlocking (ret : Int) (errno : Option EsErrno) (destroy : Bool)
  | destroying
  deriving DecidableEq, Repr

def EsPc.phase : EsPc → Phase
  | .idle | .locking _ | .destroying => .out
  | .waiting _ => .waiting
  | .locked _ | .allocating _ | .reading .. | .seeking | .closing | .unlocking .. => .inside

/-- A thread that the mutex is handed to. -/
def EsPc.resume : EsPc → EsPc
  | .waiting c => .locked c
  | pc => pc

structure EsReturn (T : Type) where
  thread : T
  ret : Int
  errno : Option EsErrno
  deriving DecidableEq, Repr

/-- `es_fd`, its mutex, and the threads; `iobuf` says whether there is a buffer. -/
structure EsFile (T : Type) where
  cfd : Int
  iobuf : Bool
  holder : Option T
  gone : Bool
  pc : T → EsPc
  returned : List (EsReturn T)

inductive EsEvent (T : Type) where
  | start (t : T) (c : EsCall)
  | lock (t : T)
  | enter (t : T)
  | alloc (t : T) (ok : Bool)
  | reply (t : T) (res : Int)
  | unlock (t : T) (next : Option T)
  | destroy (t : T)
  deriving DecidableEq, Repr

variable {T : Type} [DecidableEq T]

def EsFile.goto (s : EsFile T) (t : T) (pc : EsPc) : EsFile T := { s with pc := Function.update s.pc t pc }

def EsFile.ret (s : EsFile T) (t : T) (ret : Int) (errno : Option EsErrno) : EsFile T :=
  { s.goto t .idle with returned := s.returned ++ [⟨t, ret, errno⟩] }

/-- `LWP_MutexLock`: a thread that owns the mutex already gets an error, which nobody looks at, as it does when there is no mutex. -/
def EsFile.mutexLock (s : EsFile T) (t : T) (c : EsCall) : EsFile T :=
  if s.gone then s.goto t (.locked c)
  else
    match s.holder with
    | none => { s.goto t (.locked c) with holder := some t }
    | some u => s.goto t (if u = t then .locked c else .waiting c)

/-- `LWP_MutexUnlock`, by the owner or not; `pc` is where the thread goes on. -/
def EsFile.mutexUnlock (s : EsFile T) (t : T) (next : Option T) (pc : EsPc) : EsFile T :=
  if s.gone ∨ s.holder ≠ some t then s.goto t pc
  else
    match next with
    | none => { s.goto t pc with holder := none }
    | some u => { (s.goto t pc).goto u (s.pc u).resume with holder := some u }

/-- The loop of `_ES_read_r` with `len` bytes to go. -/
def esReadLoop (len read : Nat) : EsPc := if len = 0 then .unlocking read none false else .reading true len read

/-- What follows the lock. -/
def EsFile.enter (s : EsFile T) : EsCall → EsPc
  | .close => .closing
  | .read ptr len =>
    if s.cfd < 0 then .unlocking (-1) (some .ebadf) false
    else if ptr % 32 = 0 then .reading false len 0
    else if s.iobuf then esReadLoop len 0
    else .allocating len
  | .seek => if s.cfd < 0 then .unlocking (-1) (some .ebadf) false else .seeking
  | .fstat => if s.cfd < 0 then .unlocking (-1) (some .ebadf) false else .unlocking 0 none false

/-- What follows `ES_ReadContent`. -/
def esReadReply (buffered : Bool) (len read : Nat) (res : Int) : EsPc :=
  if res < 0 then .unlocking (-1) (some .eio) false
  else if !buffered then .unlocking res none false
  else
    let chunk := if len > ES_READ_BUF_SIZE then ES_READ_BUF_SIZE else len
    let read := read + res.toNat
    if res < chunk then .unlocking read none false else esReadLoop (uint32 (len - res)) read

def esNext (s : EsFile T) : EsEvent T → EsFile T
  | .start t c => s.goto t (.locking c)
  | .lock t =>
    match s.pc t with
    | .locking c => s.mutexLock t c
    | _ => s
  | .enter t =>
    match s.pc t with
    | .locked c => s.goto t (s.enter c)
    | _ => s
  | .alloc t ok =>
    match s.pc t with
    | .allocating len =>
      if ok then { s.goto t (esReadLoop len 0) with iobuf := true }
      else s.ret t (-1) (some .enomem)  -- the mutex is not unlocked
    | _ => s
  | .reply t res =>
    match s.pc t with
    | .reading buffered len read => s.goto t (esReadReply buffered len read res)
    | .seeking => s.goto t (if res < 0 then .unlocking (-1) (some .einval) false else .unlocking res none false)
    | .closing =>
      if res < 0 then s.ret t (-1) (some .ebadf)  -- nor is it here
      else { s.goto t (.unlocking 0 none true) with cfd := -1 }
    | _ => s
  | .unlock t next =>
    match s.pc t with
    | .unlocking ret errno destroy =>
      if destroy then s.mutexUnlock t next .destroying
      else { s.mutexUnlock t next .idle with returned := s.returned ++ [⟨t, ret, errno⟩] }
    | _ => s
  | .destroy t =>
    match s.pc t with
    | .destroying => { s.ret t 0 none with gone := s.gone || s.holder.isNone }
    | _ => s

/-- The mutex and its users. -/
def EsFile.lock (s : EsFile T) : Lock T := ⟨s.holder, s.gone, fun t => (s.pc t).phase⟩

/-- The firmware refuses a descriptor that is negative; the mutex passes to a thread that waits, if there is one. -/
def esEnabled (s : EsFile T) : EsEvent T → Prop
  | .start t _ => s.pc t = .idle
  | .lock t => match s.pc t with | .locking _ => True | _ => False
  | .enter t => match s.pc t with | .locked _ => True | _ => False
  | .alloc t _ => match s.pc t with | .allocating _ => True | _ => False
  | .reply t res => match s.pc t with | .reading .. | .seeking => True | .closing => s.cfd < 0 → res < 0 | _ => False
  | .unlock t next =>
    match s.pc t with
    | .unlocking .. => (∀ u, next = some u → (s.pc u).phase = .waiting) ∧ (next = none → s.holder = some t → s.lock.Quiet)
    | _ => False
  | .destroy t => s.pc t = .destroying

/-- Every order of the calls and of what is answered. -/
def esSystem : System (EsFile T) (EsEvent T) where
  enabled := esEnabled
  next := esNext

/-- `_ES_open_r`, with the descriptor it got. -/
def esOpened (cfd : Int) : EsFile T where
  cfd := cfd
  iobuf := false
  holder := none
  gone := false
  pc _ := .idle
  returned := []

/-- **The discipline of the lock**: with no call in progress the mutex is not held; a call that is past the lock owns it, or there is none
any more; and who waits, waits for a call that is in progress. -/
structure EsDisciplined (s : EsFile T) : Prop where
  free : (∀ t, s.pc t = .idle) → s.holder = none
  owned : ∀ t, (s.pc t).phase = .inside → s.holder = some t ∨ s.gone = true
  waits : ∀ t, (s.pc t).phase = .waiting → ∃ u, s.holder = some u ∧ (s.pc u).phase = .inside

/-- **No call fails with the mutex**: neither in the allocation of the buffer nor in `ES_CloseContent`. -/
def esKeeps (s : EsFile T) : EsEvent T → Prop
  | .alloc t ok => ok = true ∨ s.holder ≠ some t
  | .reply t res => s.pc t = .closing → 0 ≤ res ∨ s.holder ≠ some t
  | _ => True

/-! ## The steps -/

section Steps
variable {s : EsFile T} {t : T}

theorem goto_lock (s : EsFile T) (t : T) (pc : EsPc) : (s.goto t pc).lock = s.lock.set t pc.phase := by
  have hphase : (fun u => (Function.update s.pc t pc u).phase) = Function.update (fun u => (s.pc u).phase) t pc.phase :=
    Function.comp_update EsPc.phase s.pc t pc
  unfold EsFile.lock EsFile.goto Lock.set
  dsimp only
  rw [hphase]

theorem kept_goto (h : Kept s.lock) {pc : EsPc} (hp : (s.pc t).phase = pc.phase) : Kept (s.goto t pc).lock := by
  rw [goto_lock]
  exact h.stays hp

theorem kept_mutexLock (h : Kept s.lock) (c : EsCall) (hp : (s.pc t).phase = .out) : Kept (s.mutexLock t c).lock := by
  unfold EsFile.mutexLock
  cases hg : s.gone with
  | true =>
    rw [if_pos rfl, goto_lock]
    exact h.enter hg
  | false =>
    rw [if_neg Bool.false_ne_true]
    cases hh : s.holder with
    | none =>
      have htake : EsFile.lock { s.goto t (.locked c) with holder := some t } = s.lock.take t :=
        congrArg (fun l : Lock T => { l with holder := some t }) (goto_lock s t (.locked c))
      dsimp only
      rw [htake]
      exact h.take hh hg
    | some u =>
      -- the caller does not hold the mutex: it is outside
      have hut : u ≠ t := by
        rintro rfl
        exact absurd ((h.held u hh).symm.trans hp) (by decide)
      dsimp only
      rw [if_neg hut, goto_lock]
      exact h.wait hh hut

theorem resume_phase {pc : EsPc} (hp : pc.phase = .waiting) : pc.resume.phase = .inside := by
  cases pc with
  | waiting c => rfl
  | idle | locking | locked | allocating | reading | seeking | closing | unlocking | destroying => cases hp

theorem kept_mutexUnlock (h : Kept s.lock) {next : Option T} {pc : EsPc} (hp : pc.phase = .out)
    (hsome : ∀ u, next = some u → (s.pc u).phase = .waiting) (hnone : next = none → s.holder = some t → s.lock.Quiet) :
    Kept (s.mutexUnlock t next pc).lock := by
  unfold EsFile.mutexUnlock
  split
  · rename_i hno
    rw [goto_lock, hp]
    refine h.leave fun hh => ?_
    rcases hno with hgone | hne
    · exact absurd ((h.gone hgone).symm.trans hh) (Option.some_ne_none t).symm
    · exact hne hh
  · rename_i hyes
    have hh : s.holder = some t := not_not.1 (not_or.1 hyes).2
    cases next with
    | none =>
      have hpass : EsFile.lock { s.goto t pc with holder := none } = s.lock.pass t none := by
        have hset := goto_lock s t pc
        rw [hp] at hset
        exact congrArg (fun l : Lock T => { l with holder := none }) hset
      dsimp only
      rw [hpass]
      exact h.pass hh fun _ => hnone rfl hh
    | some u =>
      have hpass : EsFile.lock { (s.goto t pc).goto u (s.pc u).resume with holder := some u } = s.lock.pass t (some u) := by
        have hset := goto_lock (s.goto t pc) u (s.pc u).resume
        rw [goto_lock s t pc, hp, resume_phase (hsome u rfl)] at hset
        exact congrArg (fun l : Lock T => { l with holder := some u }) hset
      dsimp only
      rw [hpass]
      exact h.pass hh fun hn => absurd hn (Option.some_ne_none u)

theorem kept_ret (h : Kept s.lock) (hh : s.holder ≠ some t) (ret : Int) (errno : Option EsErrno) : Kept (s.ret t ret errno).lock := by
  have hset : (s.ret t ret errno).lock = s.lock.set t .out := goto_lock s t .idle
  rw [hset]
  exact h.leave hh

omit [DecidableEq T] in
theorem enter_phase (s : EsFile T) (c : EsCall) : (s.enter c).phase = .inside := by
  cases c with
  | read ptr len =>
    unfold EsFile.enter esReadLoop
    dsimp only
    split_ifs <;> rfl
  | seek =>
    unfold EsFile.enter
    dsimp only
    split_ifs <;> rfl
  | fstat =>
    unfold EsFile.enter
    dsimp only
    split_ifs <;> rfl
  | close => rfl

theorem esReadLoop_phase (len read : Nat) : (esReadLoop len read).phase = .inside := by
  unfold esReadLoop
  split_ifs <;> rfl

theorem esReadReply_phase (buffered : Bool) (len read : Nat) (res : Int) : (esReadReply buffered len read res).phase = .inside := by
  unfold esReadReply esReadLoop
  dsimp only
  split_ifs <;> rfl

theorem esNext_kept (h : Kept s.lock) {e : EsEvent T} (he : (esSystem.restrict esKeeps).enabled s e) : Kept (esNext s e).lock := by
  obtain ⟨hen, hkeeps⟩ := he
  have hen : esEnabled s e := hen
  cases e with
  | start t c =>
    have hpc : s.pc t = .idle := hen
    exact kept_goto h (by rw [hpc]; rfl)
  | lock t =>
    unfold esNext
    dsimp only
    cases hpc : s.pc t with
    | locking c => exact kept_mutexLock h c (by rw [hpc]; rfl)
    | idle | waiting | locked | allocating | reading | seeking | closing | unlocking | destroying => exact h
  | enter t =>
    unfold esNext
    dsimp only
    cases hpc : s.pc t with
    | locked c => exact kept_goto h (by rw [hpc, enter_phase]; rfl)
    | idle | locking | waiting | allocating | reading | seeking | closing | unlocking | destroying => exact h
  | alloc t ok =>
    unfold esNext
    dsimp only
    cases hpc : s.pc t with
    | allocating len =>
      dsimp only
      cases ok with
      | true => exact kept_goto h (by rw [hpc, esReadLoop_phase]; rfl)
      | false => exact kept_ret h (hkeeps.resolve_left Bool.false_ne_true) _ _
    | idle | locking | waiting | locked | reading | seeking | closing | unlocking | destroying => exact h
  | reply t res =>
    unfold esNext
    dsimp only
    cases hpc : s.pc t with
    | reading buffered len read => exact kept_goto h (by rw [hpc, esReadReply_phase]; rfl)
    | seeking =>
      dsimp only
      refine kept_goto h ?_
      rw [hpc]
      split_ifs <;> rfl
    | closing =>
      dsimp only
      split
      · rename_i hneg
        exact kept_ret h ((hkeeps hpc).resolve_left (Int.not_le.2 hneg)) _ _
      · exact kept_goto h (by rw [hpc]; rfl)
    | idle | locking | waiting | locked | allocating | unlocking | destroying => exact h
  | unlock t next =>
    unfold esEnabled at hen
    dsimp only at hen
    unfold esNext
    dsimp only
    cases hpc : s.pc t with
    | unlocking ret errno destroy =>
      rw [hpc] at hen
      dsimp only
      split
      · exact kept_mutexUnlock h rfl hen.1 hen.2
      · exact kept_mutexUnlock h rfl hen.1 hen.2
    | idle | locking | waiting | locked | allocating | reading | seeking | closing | destroying => exact h
  | destroy t =>
    have hpc : s.pc t = .destroying := hen
    have hret : Kept (s.goto t .idle).lock := kept_goto h (by rw [hpc]; rfl)
    unfold esNext
    dsimp only
    rw [hpc]
    dsimp only
    cases hh : s.holder with
    | none =>
      have hgone : (s.gone || (none : Option T).isNone) = true := Bool.or_true _
      rw [hgone]
      exact hret.destroy hh
    | some u =>
      have hgone : (s.gone || (some u).isNone) = s.gone := Bool.or_false _
      rw [hgone]
      exact hret

end Steps

/-! ## The runs -/

omit [DecidableEq T] in
theorem esOpened_kept (cfd : Int) : Kept (esOpened cfd : EsFile T).lock where
  held _ h := absurd h (Option.some_ne_none _).symm
  owned _ h := by cases h
  waits _ h := by cases h
  gone h := by cases h

omit [DecidableEq T] in
theorem esDisciplined_of_kept {s : EsFile T} (h : Kept s.lock) : EsDisciplined s where
  free hidle := h.free fun t => congrArg EsPc.phase (hidle t)
  owned := h.owned
  waits _ hw := h.waits_for hw

/-- **The lock's discipline**, in every run in which no call fails with the mutex. -/
theorem es_file_disciplined (cfd : Int) {es : List (EsEvent T)} (hl : (esSystem.restrict esKeeps).Legal (esOpened cfd) es) :
    EsDisciplined (esSystem.run (esOpened cfd) es) :=
  esDisciplined_of_kept (hl.invariant (I := fun s => Kept s.lock) (fun _ _ h he => esNext_kept h he) (esOpened_kept cfd))

/-- A read through the buffer, another thread that waits for it, and a close. -/
def esSample : List (EsEvent Bool) :=
  [.start false (.read 1 8), .lock false, .enter false, .start true .fstat, .lock true, .alloc false true, .reply false 8,
    .unlock false (some true), .enter true, .unlock true none, .start false .close, .lock false, .enter false, .reply false 0,
    .unlock false none, .destroy false]

theorem es_file_disciplined_sample : EsDisciplined (esSystem.run (esOpened 3) esSample) := by
  refine es_file_disciplined 3 ⟨⟨rfl, trivial⟩, ⟨trivial, trivial⟩, ⟨trivial, trivial⟩, ⟨rfl, trivial⟩, ⟨trivial, trivial⟩,
    ⟨trivial, .inl rfl⟩, ⟨trivial, fun h => absurd h (by decide)⟩, ⟨⟨?_, fun h => absurd h (by decide)⟩, trivial⟩, ⟨trivial, trivial⟩,
    ⟨⟨fun u h => absurd h.symm (Option.some_ne_none u), ?_⟩, trivial⟩, ⟨rfl, trivial⟩, ⟨trivial, trivial⟩, ⟨trivial, trivial⟩,
    ⟨fun h => absurd h (by decide), fun _ => .inl (Int.le_refl 0)⟩,
    ⟨⟨fun u h => absurd h.symm (Option.some_ne_none u), ?_⟩, trivial⟩, ⟨rfl, trivial⟩, trivial⟩
  · rintro u ⟨⟩
    rfl
  · rintro - - (_ | _) <;> decide
  · rintro - - (_ | _) <;> decide

/-- The buffer of an unaligned read cannot be allocated: the call returns with the mutex. -/
theorem es_file_leaked : ∃ es : List (EsEvent Bool), esSystem.Legal (esOpened 3) es ∧ ¬ EsDisciplined (esSystem.run (esOpened 3) es) := by
  refine ⟨[.start false (.read 1 8), .lock false, .enter false, .alloc false false], ?_, fun h => ?_⟩
  · exact ⟨rfl, trivial, trivial, trivial, trivial⟩
  · exact absurd (h.free (by decide)) (by decide)

end Libogc
