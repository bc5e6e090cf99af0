import Libogc.Ios.Blocks
import Libogc.Ios.Format
/-!
# FormatRuns — the format grammar, and what becomes of the buffers

`FmtLive` says which blocks are live while a format is parsed: the list of buffers, and the buffers on it.  Every case keeps it, whether its
allocation succeeds or not, so that the loop at `free_and_error` frees exactly what there is.
-/
namespace Libogc

open Bytes Ledger

section Blocks
variable {p : Places} {log₀ : List (Event (IosArena × Nat))} {kept : List (IosArena × Nat)} {st st' : IoctlvFmt}

/-! ## The buffers of a parse -/

/-- The list of buffers, and the buffers on it. -/
def IoctlvFmt.blocks (st : IoctlvFmt) : List (IosArena × Nat) :=
  (.wkspace, st.bufsAt) :: (List.range st.numBufs).map fun i => (.ipc st.hId, (st.bufs i).ipcBuf)

/-- **The live blocks of a parse**, for a call that began with `log₀` on the record and holds the blocks `kept` besides. -/
structure FmtLive (p : Places) (log₀ : List (Event (IosArena × Nat))) (kept : List (IosArena × Nat)) (st : IoctlvFmt) : Prop where
  hid : 0 ≤ st.hId ∧ st.hId < ipcNumheaps
  bufp : st.bufp = st.numBufs
  known : p.Known st.mem.tries (st.blocks ++ kept)
  live : ∃ es, st.mem.log = log₀ ++ es ∧ Holds es (st.blocks ++ kept)

variable {i : Nat}

theorem FmtLive.buf_mem (hi : i < st.numBufs) : (IosArena.ipc st.hId, (st.bufs i).ipcBuf) ∈ st.blocks ++ kept :=
  List.mem_append_left _ (List.mem_cons_of_mem _ (List.mem_map.2 ⟨i, List.mem_range.2 hi, rfl⟩))

theorem FmtLive.bufPos (h : FmtLive p log₀ kept st) (hi : i < st.numBufs) : 0 < (st.bufs i).ipcBuf := by
  obtain ⟨k, -, hp⟩ := h.known _ (FmtLive.buf_mem hi)
  exact p.pos k _ hp

theorem FmtLive.congr (h : FmtLive p log₀ kept st) (hm : st'.mem = st.mem) (hhid : st'.hId = st.hId) (hat : st'.bufsAt = st.bufsAt)
    (hb : st'.bufs = st.bufs) (hn : st'.numBufs = st.numBufs) (hp : st'.bufp = st.bufp) : FmtLive p log₀ kept st' := by
  have hblocks : st'.blocks = st.blocks := by
    unfold IoctlvFmt.blocks
    rw [hhid, hat, hb, hn]
  refine ⟨by rw [hhid]; exact h.hid, by rw [hp, hn]; exact h.bufp, ?_, ?_⟩
  · rw [hblocks, hm]
    exact h.known
  · rw [hblocks, hm]
    exact h.live

theorem FmtLive.failed (h : FmtLive p log₀ kept st) : FmtLive p log₀ kept { st with mem := { st.mem with tries := st.mem.tries + 1 } } := by
  exact ⟨h.hid, h.bufp, h.known.mono (Nat.le_succ _), h.live⟩

theorem count_fields (io : Bool) (st : IoctlvFmt) : (st.count io).mem = st.mem ∧ (st.count io).hId = st.hId ∧
    (st.count io).bufsAt = st.bufsAt ∧ (st.count io).bufs = st.bufs ∧ (st.count io).numBufs = st.numBufs ∧
    (st.count io).bufp = st.bufp := by
  cases io <;> exact ⟨rfl, rfl, rfl, rfl, rfl, rfl⟩

theorem FmtLive.counted (h : FmtLive p log₀ kept st) (io : Bool) : FmtLive p log₀ kept (st.count io) := by
  obtain ⟨e1, e2, e3, e4, e5, e6⟩ := count_fields io st
  exact h.congr e1 e2 e3 e4 e5 e6

/-- The state after a buffer at `a` was taken. -/
def IoctlvFmt.taken (st : IoctlvFmt) (a size : Nat) (bytes : List UInt8) (ioBuf copyLen : Nat) : IoctlvFmt :=
  { st with mem := { tries := st.mem.tries + 1, log := st.mem.log ++ [Event.alloc (IosArena.ipc st.hId, a)] }
            arg := st.arg + 1 }.put a size bytes ioBuf copyLen

theorem FmtLive.taken (h : FmtLive p log₀ kept st) {a : Nat} (ha : p.place st.mem.tries = some a) (size : Nat) (bytes : List UInt8)
    (ioBuf copyLen : Nat) : FmtLive p log₀ kept (st.taken a size bytes ioBuf copyLen) := by
  have hold : (List.range st.numBufs).map (fun i => (IosArena.ipc st.hId,
      (Function.update st.bufs st.bufp ⟨a, ioBuf, copyLen⟩ i).ipcBuf)) =
      (List.range st.numBufs).map fun i => (IosArena.ipc st.hId, (st.bufs i).ipcBuf) := by
    refine List.map_congr_left fun i hi => ?_
    have hlt := List.mem_range.1 hi
    rw [Function.update_of_ne (by rw [h.bufp]; omega)]
  have hblocks : (st.taken a size bytes ioBuf copyLen).blocks = st.blocks ++ [(.ipc st.hId, a)] := by
    show (IosArena.wkspace, st.bufsAt) :: (List.range (st.numBufs + 1)).map (fun i => (IosArena.ipc st.hId,
      (Function.update st.bufs st.bufp ⟨a, ioBuf, copyLen⟩ i).ipcBuf)) = _
    rw [List.range_succ, List.map_append, hold, List.map_singleton, h.bufp, Function.update_self]
    rfl
  have hperm : ((st.taken a size bytes ioBuf copyLen).blocks ++ kept).Perm ((.ipc st.hId, a) :: (st.blocks ++ kept)) := by
    rw [hblocks, List.append_assoc]
    exact List.perm_middle
  obtain ⟨es, hlog, hh⟩ := h.live
  refine ⟨h.hid, congrArg (· + 1) h.bufp, fun b hb => h.known.cons ha _ b (hperm.subset hb), es ++ [.alloc (.ipc st.hId, a)], ?_,
    (hh.alloc (h.known.fresh ha _)).perm hperm⟩
  show st.mem.log ++ _ = _
  rw [hlog, List.append_assoc]

/-! ## Freeing them -/

theorem fmtFreeBufs_log {hId : Int} (hhid : 0 ≤ hId ∧ hId < ipcNumheaps) (bufs : Nat → IoctlvfmtBufent) : ∀ (n i : Nat) (m : IosMem),
    (∀ j, i ≤ j → j < i + n → 0 < (bufs j).ipcBuf) →
    (fmtFreeBufs hId bufs n i m).log = m.log ++ (List.range' i n).map fun j => .free (.ipc hId, (bufs j).ipcBuf)
  | 0, _, m, _ => by simp [fmtFreeBufs]
  | n + 1, i, m, hb => by
    have hi := hb i (Nat.le_refl i) (by omega)
    rw [fmtFreeBufs, if_pos (Nat.pos_iff_ne_zero.1 hi), iosFree_valid hhid hi,
      fmtFreeBufs_log hhid bufs n (i + 1) _ fun j h1 h2 => hb j (by omega) (by omega), List.range'_succ, List.map_cons]
    show (m.log ++ [_]) ++ _ = _
    rw [List.append_assoc]
    rfl

theorem FmtLive.freed (h : FmtLive p log₀ kept st) : ∃ es, st.freeAndError.mem.log = log₀ ++ es ∧ Holds es kept := by
  obtain ⟨es, hlog, hh⟩ := h.live
  have hfree := fmtFreeBufs_log h.hid st.bufs st.numBufs 0 st.mem fun j _ hj => h.bufPos (by omega)
  have hperm : ((List.range st.numBufs).map (fun j => (IosArena.ipc st.hId, (st.bufs j).ipcBuf)) ++ (.wkspace, st.bufsAt) :: kept).Perm
      (st.blocks ++ kept) := List.perm_middle
  refine ⟨_, ?_, ((hh.perm hperm).frees).free⟩
  show (fmtFreeBufs st.hId st.bufs st.numBufs 0 st.mem).log ++ [_] = _
  rw [hfree, hlog, List.map_map, List.range_eq_range', List.append_assoc, List.append_assoc, List.append_assoc]
  rfl

end Blocks

/-! ## The grammar -/

def fmtInTypes : List Char := ['b', 'h', 'i', 'q', 'd', 's']
def fmtIoTypes : List Char := ['b', 'h', 'i', 'q', 'd']

/-- **The grammar**, `[bhiqds]*(:[bhiqd]*)?` in either case: the inputs are before the colon, the outputs after it. -/
structure FmtSplit (format ins ios : List Char) : Prop where
  isIn : ∀ c ∈ ins, c.toLower ∈ fmtInTypes
  isIo : ∀ c ∈ ios, c.toLower ∈ fmtIoTypes
  form : (format = ins ∧ ios = []) ∨ format = ins ++ ':' :: ios

/-- What an item is: bytes of its own, or a pointer and a length. -/
inductive FmtItem where
  | buffer (bytes : List UInt8)
  | pointer (ptr len : Nat)
  deriving DecidableEq, Repr

def fmtSize : Char → Nat
  | 'b' => 1
  | 'h' => 2
  | 'i' => 4
  | _ => 8

/-- The item of a type whose first argument is the one at `a`. -/
def fmtItem (user : Nat → UInt8) (args : Nat → Nat) (io : Bool) (type : Char) (a : Nat) : FmtItem :=
  if type = 'd' then .pointer (args a) (u32 (args (a + 1)))
  else if type = 's' then .buffer (read user (args a) (strnlen user (args a) 256 + 1))
  else .buffer (if io then read user (args a) (fmtSize type) else beBytes (fmtSize type) (args a))

def FmtItem.used : FmtItem → Nat
  | .buffer _ => 1
  | .pointer _ _ => 2

def FmtItem.buffers : FmtItem → Nat
  | .buffer _ => 1
  | .pointer _ _ => 0

/-- A buffer has a byte at least. -/
def FmtItem.Sized : FmtItem → Prop
  | .buffer bytes => 0 < bytes.length
  | .pointer _ _ => True

/-- The arguments that items take. -/
def fmtUsed (c : Char) : Nat := if c.toLower = 'd' then 2 else 1

def fmtArgs (items : List Char) : Nat := (items.map fmtUsed).sum

/-- The buffers that they take. -/
def fmtBuffers (items : List Char) : Nat := items.countP fun c => c.toLower ≠ 'd'

/-- The items of some types, the first of which begins at the argument `a`. -/
def fmtItems (user : Nat → UInt8) (args : Nat → Nat) (io : Bool) : Nat → List Char → List FmtItem
  | _, [] => []
  | a, c :: cs => fmtItem user args io c.toLower a :: fmtItems user args io (a + fmtUsed c) cs

/-- The strings among the inputs, from the argument `a` on, are short. -/
def FmtShort (user : Nat → UInt8) (args : Nat → Nat) : Nat → List Char → Prop
  | _, [] => True
  | a, c :: ins => (c.toLower = 's' → strnlen user (args a) 256 < 256) ∧ FmtShort user args (a + fmtUsed c) ins

theorem fmtBuffers_cons (c : Char) (cs : List Char) : fmtBuffers (c :: cs) = fmtBuffers cs + if c.toLower = 'd' then 0 else 1 := by
  unfold fmtBuffers
  by_cases hd : c.toLower = 'd'
  · rw [List.countP_cons_of_neg (by simpa using hd), if_pos hd, Nat.add_zero]
  · rw [List.countP_cons_of_pos (by simpa using hd), if_neg hd]

theorem fmtBuffers_append (xs ys : List Char) : fmtBuffers (xs ++ ys) = fmtBuffers xs + fmtBuffers ys := List.countP_append ..

theorem fmtItem_used (user : Nat → UInt8) (args : Nat → Nat) (io : Bool) (c : Char) (a : Nat) :
    (fmtItem user args io c.toLower a).used = fmtUsed c := by
  unfold fmtItem fmtUsed
  split_ifs <;> rfl

theorem fmtItem_buffers (user : Nat → UInt8) (args : Nat → Nat) (io : Bool) (c : Char) (a : Nat) :
    (fmtItem user args io c.toLower a).buffers = if c.toLower = 'd' then 0 else 1 := by
  unfold fmtItem
  split_ifs <;> rfl

theorem fmtItem_sized (user : Nat → UInt8) (args : Nat → Nat) (io : Bool) (type : Char) (a : Nat) :
    (fmtItem user args io type a).Sized := by
  have hsize : 0 < fmtSize type := by
    unfold fmtSize
    split <;> decide
  unfold fmtItem
  split_ifs
  · trivial
  · exact (Nat.succ_pos _).trans_eq (read_length ..).symm
  · exact hsize.trans_eq (read_length ..).symm
  · exact hsize.trans_eq (beBytes_length ..).symm

variable {c : Char} {ins ios cs : List Char}

theorem toLower_eq_colon : c.toLower = ':' ↔ c = ':' := by
  unfold Char.toLower
  constructor
  · intro h
    split at h
    · rename_i hc
      have hv : c.val + ('a'.val - 'A'.val) = ':'.val := congrArg Char.val h
      have hn := congrArg UInt32.toNat hv
      have hlo : 65 ≤ c.val.toNat := hc.1
      have hhi : c.val.toNat ≤ 90 := hc.2
      have h32 : ('a'.val - 'A'.val).toNat = 32 := rfl
      have h58 : (':'.val).toNat = 58 := rfl
      rw [UInt32.toNat_add, h32, h58] at hn
      omega
    · exact h
  · rintro rfl
    rfl

theorem FmtSplit.nil : FmtSplit [] ins ios ↔ ins = [] ∧ ios = [] := by
  constructor
  · intro h
    rcases h.form with ⟨h1, h2⟩ | h1
    · exact ⟨h1.symm, h2⟩
    · simp at h1
  · rintro ⟨rfl, rfl⟩
    exact ⟨by simp, by simp, .inl ⟨rfl, rfl⟩⟩

theorem not_colon_inTypes : ¬ (':' : Char).toLower ∈ fmtInTypes := by decide

theorem FmtSplit.colon : FmtSplit (':' :: cs) ins ios ↔ ins = [] ∧ ios = cs ∧ ∀ c ∈ cs, c.toLower ∈ fmtIoTypes := by
  constructor
  · intro h
    cases ins with
    | nil =>
      rcases h.form with ⟨h1, -⟩ | h1
      · cases h1
      · obtain rfl : cs = ios := List.tail_eq_of_cons_eq h1
        exact ⟨rfl, rfl, h.isIo⟩
    | cons d ins =>
      have hd : ':' = d := by
        rcases h.form with ⟨h1, -⟩ | h1
        · exact List.head_eq_of_cons_eq h1
        · exact List.head_eq_of_cons_eq h1
      exact absurd (h.isIn d List.mem_cons_self) (hd ▸ not_colon_inTypes)
  · rintro ⟨rfl, rfl, hio⟩
    exact ⟨by simp, hio, .inr rfl⟩

theorem FmtSplit.cons (hc : c ≠ ':') :
    FmtSplit (c :: cs) ins ios ↔ ∃ ins', ins = c :: ins' ∧ c.toLower ∈ fmtInTypes ∧ FmtSplit cs ins' ios := by
  constructor
  · intro h
    cases ins with
    | nil =>
      rcases h.form with ⟨h1, -⟩ | h1
      · cases h1
      · exact absurd (List.head_eq_of_cons_eq h1) hc
    | cons d ins =>
      have hd : c = d := by
        rcases h.form with ⟨h1, -⟩ | h1
        · exact List.head_eq_of_cons_eq h1
        · exact List.head_eq_of_cons_eq h1
      subst hd
      refine ⟨ins, rfl, h.isIn c List.mem_cons_self, fun x hx => h.isIn x (List.mem_cons_of_mem _ hx), h.isIo, ?_⟩
      rcases h.form with ⟨h1, h2⟩ | h1
      · exact .inl ⟨List.tail_eq_of_cons_eq h1, h2⟩
      · exact .inr (List.tail_eq_of_cons_eq h1)
  · rintro ⟨ins', rfl, ht, h⟩
    refine ⟨?_, h.isIo, ?_⟩
    · intro x hx
      rcases List.mem_cons.1 hx with rfl | hx
      · exact ht
      · exact h.isIn x hx
    · rcases h.form with ⟨rfl, h2⟩ | rfl
      · exact .inl ⟨rfl, h2⟩
      · exact .inr rfl

theorem FmtSplit.unique {format ins' ios' : List Char} (h : FmtSplit format ins ios) (h' : FmtSplit format ins' ios') :
    ins = ins' ∧ ios = ios' := by
  induction format generalizing ins ins' with
  | nil =>
    obtain ⟨rfl, rfl⟩ := FmtSplit.nil.1 h
    obtain ⟨rfl, rfl⟩ := FmtSplit.nil.1 h'
    exact ⟨rfl, rfl⟩
  | cons c cs ih =>
    by_cases hc : c = ':'
    · subst hc
      obtain ⟨rfl, rfl, -⟩ := FmtSplit.colon.1 h
      obtain ⟨rfl, rfl, -⟩ := FmtSplit.colon.1 h'
      exact ⟨rfl, rfl⟩
    · obtain ⟨tl, rfl, -, ht⟩ := (FmtSplit.cons hc).1 h
      obtain ⟨tl', rfl, -, ht'⟩ := (FmtSplit.cons hc).1 h'
      obtain ⟨rfl, rfl⟩ := ih ht ht'
      exact ⟨rfl, rfl⟩

/-! ## One item -/

section Items
variable {p : Places} {user : Nat → UInt8} {args : Nat → Nat} {log₀ : List (Event (IosArena × Nat))} {st st' : IoctlvFmt}

/-- What every case comes to. -/
def fmtTake (p : Places) (args : Nat → Nat) (io : Bool) (item : FmtItem) (st : IoctlvFmt) : FmtResult :=
  match item with
  | .buffer bytes => fmtBuffer p io bytes.length bytes (if io then args st.arg else 0) (if io then bytes.length else 0) st
  | .pointer ptr len =>
    .ok ({ st with argv := Function.update st.argv st.argp ⟨ptr, len⟩, argp := st.argp + 1, arg := st.arg + 2 }.count io)

variable {type : Char}

theorem fmtInCase_ok (ht : type ∈ fmtInTypes) (hs : type = 's' → strnlen user (args st.arg) 256 < 256) :
    fmtInCase p user args type st = fmtTake p args false (fmtItem user args false type st.arg) st := by
  have hcases : type = 'b' ∨ type = 'h' ∨ type = 'i' ∨ type = 'q' ∨ type = 'd' ∨ type = 's' := by simpa [fmtInTypes] using ht
  have hnum : ∀ n v, fmtTake p args false (.buffer (beBytes n v)) st = fmtBuffer p false n (beBytes n v) 0 0 st := by
    intro n v
    unfold fmtTake
    dsimp only
    rw [beBytes_length]
    rfl
  rcases hcases with rfl | rfl | rfl | rfl | rfl | rfl
  · exact (hnum 1 _).symm
  · exact (hnum 2 _).symm
  · exact (hnum 4 _).symm
  · exact (hnum 8 _).symm
  · rfl
  · show fmtString p user args st = fmtTake p args false (.buffer (read user (args st.arg) (strnlen user (args st.arg) 256 + 1))) st
    unfold fmtString fmtTake
    dsimp only
    rw [if_neg (Nat.not_le.2 (hs rfl)), read_length]
    rfl

theorem fmtInCase_bad (h : ¬ (type ∈ fmtInTypes ∧ (type = 's' → strnlen user (args st.arg) 256 < 256))) :
    fmtInCase p user args type st = .error (st, ipcEinval) := by
  unfold fmtInCase
  split
  · exact absurd ⟨by decide, fun hc => absurd hc (by decide)⟩ h
  · exact absurd ⟨by decide, fun hc => absurd hc (by decide)⟩ h
  · exact absurd ⟨by decide, fun hc => absurd hc (by decide)⟩ h
  · exact absurd ⟨by decide, fun hc => absurd hc (by decide)⟩ h
  · exact absurd ⟨by decide, fun hc => absurd hc (by decide)⟩ h
  · have hlong : 256 ≤ strnlen user (args st.arg) 256 := by
      by_contra hlt
      exact h ⟨by decide, fun _ => Nat.lt_of_not_le hlt⟩
    exact if_pos hlong
  · rfl

theorem fmtIoCase_ok (ht : type ∈ fmtIoTypes) :
    fmtIoCase p user args type st = fmtTake p args true (fmtItem user args true type st.arg) st := by
  have hcases : type = 'b' ∨ type = 'h' ∨ type = 'i' ∨ type = 'q' ∨ type = 'd' := by simpa [fmtIoTypes] using ht
  have hnum : ∀ n, fmtTake p args true (.buffer (read user (args st.arg) n)) st =
      fmtBuffer p true n (read user (args st.arg) n) (args st.arg) n st := by
    intro n
    unfold fmtTake
    dsimp only
    rw [read_length]
    rfl
  rcases hcases with rfl | rfl | rfl | rfl | rfl
  · exact (hnum 1).symm
  · exact (hnum 2).symm
  · exact (hnum 4).symm
  · exact (hnum 8).symm
  · rfl

theorem fmtIoCase_bad (h : type ∉ fmtIoTypes) : fmtIoCase p user args type st = .error (st, ipcEinval) := by
  unfold fmtIoCase
  split
  · exact absurd (by decide) h
  · exact absurd (by decide) h
  · exact absurd (by decide) h
  · exact absurd (by decide) h
  · exact absurd (by decide) h
  · rfl

end Items

end Libogc
