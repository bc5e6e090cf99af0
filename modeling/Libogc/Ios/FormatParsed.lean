import Libogc.Ios.FormatRuns
/-!
# FormatParsed — what a format is parsed to, and what a formatted call leaves

`FmtInv` is the state after some items: each cursor is where the items before it leave it, and each entry of the vector describes its item.
A case either keeps it with one item more, or stops with the buffers it has.
-/
namespace Libogc

open Bytes Ledger

section Invariant
variable {p : Places} {user : Nat → UInt8} {args : Nat → Nat} {log₀ : List (Event (IosArena × Nat))}
  {kept : List (IosArena × Nat)} {st st' : IoctlvFmt}

/-- What an entry of the vector describes: a buffer of the call's own with those bytes, or the caller's memory. -/
def IoctlvFmt.describes (st : IoctlvFmt) (k : Nat) : FmtItem → Prop
  | .buffer bytes => (st.argv k).len = bytes.length ∧ st.data (st.argv k).data = bytes ∧
      ∃ i, 0 < i ∧ i < st.numBufs ∧ (st.bufs i).ipcBuf = (st.argv k).data
  | .pointer ptr len => st.argv k = ⟨ptr, len⟩

/-- **The state after `items`**, `nIn` of them inputs and `nIo` outputs, when `t₀` allocations were tried before them. -/
structure FmtInv (p : Places) (log₀ : List (Event (IosArena × Nat))) (kept : List (IosArena × Nat)) (t₀ nIn nIo : Nat)
    (items : List FmtItem) (st : IoctlvFmt) : Prop where
  live : FmtLive p log₀ kept st
  tries : st.mem.tries = t₀ + (items.map FmtItem.buffers).sum
  cntIn : st.cntIn = nIn
  cntIo : st.cntIo = nIo
  argp : st.argp = items.length
  arg : st.arg = (items.map FmtItem.used).sum
  numBufs : st.numBufs = 1 + (items.map FmtItem.buffers).sum
  describes : ∀ k item, items[k]? = some item → st.describes k item

/-- What a part of the parser comes to: it goes on when `good`, and else stops with an error and the buffers it has. -/
def FmtPost (p : Places) (log₀ : List (Event (IosArena × Nat))) (kept : List (IosArena × Nat)) (good : Prop) (inv : IoctlvFmt → Prop) : FmtResult → Prop
  | .ok st => good ∧ inv st
  | .error (st, ret) => ¬ good ∧ FmtLive p log₀ kept st ∧ ret < 0

variable {good good' : Prop} {inv inv' : IoctlvFmt → Prop} {res : FmtResult} {a : Nat} {item : FmtItem}

theorem FmtPost.congr (h : FmtPost p log₀ kept good inv res) (hg : good ↔ good') (hi : ∀ st, good → inv st → inv' st) :
    FmtPost p log₀ kept good' inv' res := by
  cases res with
  | ok st => exact ⟨hg.1 h.1, hi st h.1 h.2⟩
  | error e => exact ⟨fun hg' => h.1 (hg.2 hg'), h.2⟩

theorem FmtPost.bind {f : IoctlvFmt → FmtResult} (h : FmtPost p log₀ kept good inv res)
    (hf : ∀ st, inv st → FmtPost p log₀ kept good' inv' (f st)) : FmtPost p log₀ kept (good ∧ good') inv' (res >>= f) := by
  cases res with
  | ok st => exact (hf st h.2).congr ⟨fun hg => ⟨h.1, hg⟩, fun hg => hg.2⟩ fun _ _ hi => hi
  | error e => exact ⟨fun hg => h.1 hg.1, h.2⟩

/-! ## One item -/

theorem FmtLive.ne_of_place (h : FmtLive p log₀ kept st) {i : Nat} (ha : p.place st.mem.tries = some a) (hi : i < st.numBufs) :
    (st.bufs i).ipcBuf ≠ a := by
  intro he
  exact h.known.fresh ha _ (he ▸ FmtLive.buf_mem hi)

variable {t₀ nIn nIo : Nat} {items : List FmtItem}

theorem describes_count (io : Bool) (st : IoctlvFmt) (k : Nat) (item : FmtItem) : (st.count io).describes k item ↔ st.describes k item := by
  cases io <;> exact Iff.rfl

theorem FmtInv.counted (h : FmtInv p log₀ kept t₀ nIn nIo items st) (io : Bool) :
    FmtInv p log₀ kept t₀ (if io then nIn else nIn + 1) (if io then nIo + 1 else nIo) items (st.count io) := by
  have hd : ∀ k item, items[k]? = some item → (st.count io).describes k item :=
    fun k item hk => (describes_count io st k item).2 (h.describes k item hk)
  cases io with
  | false => exact ⟨h.live.counted false, h.tries, congrArg (· + 1) h.cntIn, h.cntIo, h.argp, h.arg, h.numBufs, hd⟩
  | true => exact ⟨h.live.counted true, h.tries, h.cntIn, congrArg (· + 1) h.cntIo, h.argp, h.arg, h.numBufs, hd⟩

theorem sum_map_concat (f : FmtItem → Nat) (items : List FmtItem) (item : FmtItem) :
    ((items ++ [item]).map f).sum = (items.map f).sum + f item := by
  rw [List.map_append, List.sum_append, List.map_singleton, List.sum_singleton]

theorem describes_concat (hold : ∀ k it, items[k]? = some it → st'.describes k it) (hnew : st'.describes items.length item) :
    ∀ k it, (items ++ [item])[k]? = some it → st'.describes k it := by
  intro k it hk
  rcases Nat.lt_trichotomy k items.length with hlt | rfl | hgt
  · rw [List.getElem?_append_left hlt] at hk
    exact hold k it hk
  · rw [List.getElem?_concat_length] at hk
    rw [← Option.some.inj hk]
    exact hnew
  · rw [List.getElem?_eq_none (by rw [List.length_append, List.length_singleton]; omega)] at hk
    cases hk

theorem FmtInv.pointed (h : FmtInv p log₀ kept t₀ nIn nIo items st) (ptr len : Nat) :
    FmtInv p log₀ kept t₀ nIn nIo (items ++ [.pointer ptr len])
      { st with argv := Function.update st.argv st.argp ⟨ptr, len⟩, argp := st.argp + 1, arg := st.arg + 2 } := by
  refine ⟨h.live.congr rfl rfl rfl rfl rfl rfl, ?_, h.cntIn, h.cntIo, ?_, ?_, ?_, describes_concat (fun k it hk => ?_) ?_⟩
  · rw [sum_map_concat]
    exact h.tries
  · rw [List.length_append, List.length_singleton, ← h.argp]
  · rw [sum_map_concat, ← h.arg]
    rfl
  · rw [sum_map_concat]
    exact h.numBufs
  · have hlt := (List.getElem?_eq_some_iff.1 hk).1
    have hne : k ≠ st.argp := by
      have := h.argp
      omega
    have hd := h.describes k it hk
    unfold IoctlvFmt.describes at hd ⊢
    dsimp only
    rw [Function.update_of_ne hne]
    exact hd
  · rw [← h.argp]
    exact Function.update_self ..

theorem FmtInv.taken (h : FmtInv p log₀ kept t₀ nIn nIo items st) (ha : p.place st.mem.tries = some a) (bytes : List UInt8)
    (ioBuf copyLen : Nat) : FmtInv p log₀ kept t₀ nIn nIo (items ++ [.buffer bytes]) (st.taken a bytes.length bytes ioBuf copyLen) := by
  have hnum : st.bufp = st.numBufs := h.live.bufp
  refine ⟨h.live.taken ha bytes.length bytes ioBuf copyLen, ?_, h.cntIn, h.cntIo, ?_, ?_, ?_, describes_concat (fun k it hk => ?_) ?_⟩
  · rw [sum_map_concat]
    exact congrArg (· + 1) h.tries
  · rw [List.length_append, List.length_singleton, ← h.argp]
    rfl
  · rw [sum_map_concat, ← h.arg]
    rfl
  · rw [sum_map_concat]
    exact congrArg (· + 1) h.numBufs
  · have hlt := (List.getElem?_eq_some_iff.1 hk).1
    have hne : k ≠ st.argp := by
      have := h.argp
      omega
    have hargv : (st.taken a bytes.length bytes ioBuf copyLen).argv k = st.argv k := Function.update_of_ne hne ..
    have hd := h.describes k it hk
    cases it with
    | pointer ptr len => exact hargv.trans hd
    | buffer bytes' =>
      obtain ⟨hlen, hdata, i, hi0, hin, hbuf⟩ := hd
      have hib : i ≠ st.bufp := by omega
      have hbufs : ((st.taken a bytes.length bytes ioBuf copyLen).bufs i) = st.bufs i := Function.update_of_ne hib ..
      have hne' : (st.argv k).data ≠ a := hbuf ▸ h.live.ne_of_place ha hin
      refine ⟨by rw [hargv]; exact hlen, ?_, i, hi0, Nat.lt_succ_of_lt hin, by rw [hbufs, hargv]; exact hbuf⟩
      rw [hargv]
      exact (Function.update_of_ne hne' ..).trans hdata
  · have hargv : (st.taken a bytes.length bytes ioBuf copyLen).argv items.length = ⟨a, bytes.length⟩ := by
      rw [← h.argp]
      exact Function.update_self ..
    have hbuf : (st.taken a bytes.length bytes ioBuf copyLen).bufs st.numBufs = ⟨a, ioBuf, copyLen⟩ := by
      rw [← hnum]
      exact Function.update_self ..
    have hpos : 0 < st.numBufs := by
      have := h.numBufs
      omega
    refine ⟨by rw [hargv], ?_, st.numBufs, hpos, Nat.lt_succ_self _, by rw [hbuf, hargv]⟩
    rw [hargv]
    exact Function.update_self ..

variable (args) in
theorem FmtInv.take (h : FmtInv p log₀ kept t₀ nIn nIo items st) (io : Bool) (hs : item.Sized) :
    FmtPost p log₀ kept (∀ k < item.buffers, (p.place (st.mem.tries + k)).isSome)
      (FmtInv p log₀ kept t₀ (if io then nIn else nIn + 1) (if io then nIo + 1 else nIo) (items ++ [item]))
      (fmtTake p args io item st) := by
  cases item with
  | pointer ptr len => exact ⟨fun k hk => absurd hk (Nat.not_lt_zero k), (h.pointed ptr len).counted io⟩
  | buffer bytes =>
    have hsize : (0 : Int) < bytes.length := Int.natCast_pos.2 hs
    show FmtPost p log₀ kept _ _ (fmtBuffer p io bytes.length bytes _ _ st)
    unfold fmtBuffer
    rw [iosAlloc_valid h.live.hid hsize]
    cases hp : p.place st.mem.tries with
    | none =>
      rw [allocate_none hp]
      refine ⟨fun hall => ?_, h.live.failed, by decide⟩
      have := hall 0 Nat.zero_lt_one
      rw [Nat.add_zero, hp] at this
      cases this
    | some a =>
      rw [allocate_some hp]
      refine ⟨fun k hk => ?_, (h.taken hp bytes _ _).counted io⟩
      obtain rfl : k = 0 := Nat.lt_one_iff.1 hk
      rw [Nat.add_zero, hp]
      rfl

/-! ## The loops -/

theorem fmtItems_map_buffers (io : Bool) (a : Nat) (cs : List Char) :
    ((fmtItems user args io a cs).map FmtItem.buffers).sum = fmtBuffers cs := by
  induction cs generalizing a with
  | nil => rfl
  | cons c cs ih => rw [fmtItems, List.map_cons, List.sum_cons, ih, fmtItem_buffers, fmtBuffers_cons, Nat.add_comm]

theorem FmtInv.cursors {nIn' nIo' : Nat} {io : Bool} {c : Char} (h : FmtInv p log₀ kept t₀ nIn nIo items st)
    (h' : FmtInv p log₀ kept t₀ nIn' nIo' (items ++ [fmtItem user args io c.toLower a]) st') :
    st'.arg = st.arg + fmtUsed c ∧ st'.mem.tries = st.mem.tries + if c.toLower = 'd' then 0 else 1 := by
  constructor
  · rw [h'.arg, sum_map_concat, ← h.arg, fmtItem_used]
  · rw [h'.tries, sum_map_concat, ← Nat.add_assoc, ← h.tries, fmtItem_buffers]

variable (user args) in
theorem FmtInv.parseIo : ∀ (format : List Char) (nIo : Nat) (items : List FmtItem) (st : IoctlvFmt), FmtInv p log₀ kept t₀ nIn nIo items st →
    FmtPost p log₀ kept ((∀ c ∈ format, c.toLower ∈ fmtIoTypes) ∧ p.Serves st.mem.tries (fmtBuffers format))
      (FmtInv p log₀ kept t₀ nIn (nIo + format.length) (items ++ fmtItems user args true st.arg format)) (fmtParseIo p user args format st)
  | [], _, items, st, h => by
    refine ⟨⟨by simp, fun k hk => absurd hk (Nat.not_lt_zero k)⟩, ?_⟩
    rw [fmtItems, List.append_nil]
    exact h
  | c :: format, nIo, items, st, h => by
    rw [fmtParseIo]
    by_cases ht : c.toLower ∈ fmtIoTypes
    · rw [fmtIoCase_ok ht]
      have hitem := h.take args true (fmtItem_sized user args true c.toLower st.arg)
      have hnext := hitem.bind (f := fmtParseIo p user args format) fun st' h' => by
        have := FmtInv.parseIo format (nIo + 1) _ st' h'
        rw [(h.cursors h').1, (h.cursors h').2] at this
        exact this
      refine hnext.congr ?_ fun st' _ hst' => ?_
      · rw [fmtBuffers_cons, Nat.add_comm (fmtBuffers format), Places.Serves.add, fmtItem_buffers, List.forall_mem_cons]
        constructor
        · rintro ⟨h1, h2, h3⟩
          exact ⟨⟨ht, h2⟩, h1, h3⟩
        · rintro ⟨⟨-, h2⟩, h1, h3⟩
          exact ⟨h1, h2, h3⟩
      · rw [fmtItems, List.length_cons, Nat.add_comm format.length, ← Nat.add_assoc]
        rw [List.append_assoc] at hst'
        exact hst'
    · rw [fmtIoCase_bad ht]
      exact ⟨fun hg => ht (hg.1 c List.mem_cons_self), h.live, by decide⟩

/-- What makes the first loop go to the end. -/
def FmtGood (p : Places) (user : Nat → UInt8) (args : Nat → Nat) (t a : Nat) (format : List Char) : Prop :=
  ∃ ins ios, FmtSplit format ins ios ∧ FmtShort user args a ins ∧ p.Serves t (fmtBuffers (ins ++ ios))

variable (user args) in
theorem FmtInv.parseIn : ∀ (format : List Char) (nIn : Nat) (items : List FmtItem) (st : IoctlvFmt), FmtInv p log₀ kept t₀ nIn 0 items st →
    FmtPost p log₀ kept (FmtGood p user args st.mem.tries st.arg format)
      (fun st' => ∃ ins ios, FmtSplit format ins ios ∧ FmtInv p log₀ kept t₀ (nIn + ins.length) ios.length
        (items ++ fmtItems user args false st.arg ins ++ fmtItems user args true (st.arg + fmtArgs ins) ios) st')
      (fmtParseIn p user args format st)
  | [], _, items, st, h => by
    refine ⟨⟨[], [], FmtSplit.nil.2 ⟨rfl, rfl⟩, trivial, fun k hk => absurd hk (Nat.not_lt_zero k)⟩, [], [],
      FmtSplit.nil.2 ⟨rfl, rfl⟩, ?_⟩
    rw [fmtItems, fmtItems, List.append_nil, List.append_nil]
    exact h
  | c :: format, nIn, items, st, h => by
    rw [fmtParseIn]
    by_cases hc : c = ':'
    · subst hc
      rw [if_pos (toLower_eq_colon.2 rfl)]
      refine (FmtInv.parseIo user args format 0 items st h).congr ?_ fun st' hg hst' => ?_
      · constructor
        · rintro ⟨h1, h2⟩
          exact ⟨[], format, FmtSplit.colon.2 ⟨rfl, rfl, h1⟩, trivial, h2⟩
        · rintro ⟨ins, ios, hsplit, -, h2⟩
          obtain ⟨rfl, rfl, h1⟩ := FmtSplit.colon.1 hsplit
          exact ⟨h1, h2⟩
      · refine ⟨[], format, FmtSplit.colon.2 ⟨rfl, rfl, hg.1⟩, ?_⟩
        rw [Nat.zero_add] at hst'
        rw [fmtItems, List.append_nil]
        exact hst'
    · rw [if_neg (mt toLower_eq_colon.1 hc)]
      by_cases ht : c.toLower ∈ fmtInTypes ∧ (c.toLower = 's' → strnlen user (args st.arg) 256 < 256)
      · rw [fmtInCase_ok ht.1 ht.2]
        have hitem := h.take args false (fmtItem_sized user args false c.toLower st.arg)
        have hnext := hitem.bind (f := fmtParseIn p user args format) fun st' h' => by
          have := FmtInv.parseIn format (nIn + 1) _ st' h'
          rw [(h.cursors h').1, (h.cursors h').2] at this
          exact this
        refine hnext.congr ?_ fun st' _ hst' => ?_
        · rw [fmtItem_buffers]
          constructor
          · rintro ⟨h1, ins, ios, hsplit, hshort, h3⟩
            refine ⟨c :: ins, ios, (FmtSplit.cons hc).2 ⟨ins, rfl, ht.1, hsplit⟩, ⟨ht.2, hshort⟩, ?_⟩
            rw [List.cons_append, fmtBuffers_cons, Nat.add_comm, Places.Serves.add]
            exact ⟨h1, h3⟩
          · rintro ⟨_, ios, hsplit, hshort, h3⟩
            obtain ⟨ins, rfl, -, hsplit'⟩ := (FmtSplit.cons hc).1 hsplit
            rw [List.cons_append, fmtBuffers_cons, Nat.add_comm, Places.Serves.add] at h3
            exact ⟨h3.1, ins, ios, hsplit', hshort.2, h3.2⟩
        · obtain ⟨ins, ios, hsplit, hinv⟩ := hst'
          refine ⟨c :: ins, ios, (FmtSplit.cons hc).2 ⟨ins, rfl, ht.1, hsplit⟩, ?_⟩
          have hargs : st.arg + fmtArgs (c :: ins) = st.arg + fmtUsed c + fmtArgs ins := (Nat.add_assoc ..).symm
          rw [hargs, fmtItems, List.length_cons, Nat.add_comm ins.length, ← Nat.add_assoc]
          rw [List.append_assoc items] at hinv
          exact hinv
      · rw [fmtInCase_bad ht]
        refine ⟨?_, h.live, by decide⟩
        rintro ⟨_, ios, hsplit, hshort, -⟩
        obtain ⟨ins, rfl, hc', -⟩ := (FmtSplit.cons hc).1 hsplit
        exact ht ⟨hc', hshort.1⟩

end Invariant

/-! ## The parser -/

section Parse
variable {p : Places} {user : Nat → UInt8} {args : Nat → Nat} {log₀ : List (Event (IosArena × Nat))}
  {kept : List (IosArena × Nat)} {ipcHid hId : Int} {m : IosMem} {format ins ios : List Char}

/-- The heap that a parse takes its buffers from. -/
def fmtHeap (ipcHid hId : Int) : Int := if hId = ipcHeap then ipcHid else hId

/-- **What a parse accepts**, when `t` allocations were tried before it. -/
structure FmtAccepts (p : Places) (user : Nat → UInt8) (args : Nat → Nat) (ipcHid hId : Int) (t : Nat) (format ins ios : List Char) :
    Prop where
  hid : 0 ≤ fmtHeap ipcHid hId ∧ fmtHeap ipcHid hId < ipcNumheaps
  len : format.length < iosMaxfmtParams
  split : FmtSplit format ins ios
  short : FmtShort user args 0 ins
  serves : p.Serves t (2 + fmtBuffers (ins ++ ios))

/-- The items of a format, one after another. -/
def fmtAll (user : Nat → UInt8) (args : Nat → Nat) (ins ios : List Char) : List FmtItem :=
  fmtItems user args false 0 ins ++ fmtItems user args true (fmtArgs ins) ios

theorem FmtInv.start {bufs argp : Nat} (hk : p.Known m.tries kept) (hm : ∃ es, m.log = log₀ ++ es ∧ Holds es kept)
    (hhid : 0 ≤ hId ∧ hId < ipcNumheaps) (hb : p.place m.tries = some bufs) (ha : p.place (m.tries + 1) = some argp) :
    FmtInv p log₀ kept (m.tries + 2) 0 0 []
      (fmtStart { tries := m.tries + 2, log := m.log ++ [Event.alloc (.wkspace, bufs)] ++ [Event.alloc (.ipc hId, argp)] }
        hId bufs argp) := by
  have hkb : p.Known (m.tries + 1) ((IosArena.wkspace, bufs) :: kept) := hk.cons hb _
  have hka : p.Known (m.tries + 2) ((IosArena.ipc hId, argp) :: (IosArena.wkspace, bufs) :: kept) := hkb.cons ha _
  have hperm : ([(IosArena.wkspace, bufs), (IosArena.ipc hId, argp)] ++ kept).Perm
      ((IosArena.ipc hId, argp) :: (IosArena.wkspace, bufs) :: kept) := List.Perm.swap ..
  obtain ⟨es, hlog, hh⟩ := hm
  have hlive : Holds (es ++ [.alloc (.wkspace, bufs)] ++ [.alloc (.ipc hId, argp)])
      ((IosArena.ipc hId, argp) :: (IosArena.wkspace, bufs) :: kept) := (hh.alloc (hk.fresh hb _)).alloc (hkb.fresh ha _)
  refine ⟨⟨hhid, rfl, fun b hb' => hka b (hperm.subset hb'), _, ?_, hlive.perm hperm⟩, rfl, rfl, rfl, rfl, rfl, rfl, ?_⟩
  · show m.log ++ _ ++ _ = _
    rw [hlog, List.append_assoc, List.append_assoc, List.append_assoc]
  · intro k item hi
    cases hi

/-- What a parse comes to. -/
def FmtParsed (p : Places) (user : Nat → UInt8) (args : Nat → Nat) (log₀ : List (Event (IosArena × Nat)))
    (kept : List (IosArena × Nat)) (ipcHid hId : Int) (t : Nat) (format : List Char) (got : IoctlvFmt × Int) : Prop :=
  (got.2 = ipcOk ∧ ∃ ins ios, FmtAccepts p user args ipcHid hId t format ins ios ∧
    FmtInv p log₀ kept (t + 2) ins.length ios.length (fmtAll user args ins ios) got.1) ∨
  (got.2 < 0 ∧ (¬ ∃ ins ios, FmtAccepts p user args ipcHid hId t format ins ios) ∧
    ∃ es, got.1.mem.log = log₀ ++ es ∧ Holds es kept)

theorem ipcEinval_neg : ipcEinval < 0 := by decide

/-- **The parser**: it succeeds on what it accepts, and fails with all it took freed on the rest. -/
theorem iosIoctlvformatParse_spec (hk : p.Known m.tries kept) (hm : ∃ es, m.log = log₀ ++ es ∧ Holds es kept) (format : List Char) :
    FmtParsed p user args log₀ kept ipcHid hId m.tries format (iosIoctlvformatParse p user args ipcHid m format hId) := by
  have hheap : (if hId = ipcHeap then ipcHid else hId) = fmtHeap ipcHid hId := rfl
  unfold iosIoctlvformatParse
  dsimp only
  rw [hheap]
  by_cases hneg : fmtHeap ipcHid hId < 0
  · rw [if_pos hneg]
    refine .inr ⟨ipcEinval_neg, ?_, hm⟩
    rintro ⟨ins, ios, hacc⟩
    exact absurd hacc.hid.1 (Int.not_le.2 hneg)
  rw [if_neg hneg]
  by_cases hlen : min format.length iosMaxfmtParams ≥ iosMaxfmtParams
  · rw [if_pos hlen]
    refine .inr ⟨ipcEinval_neg, ?_, hm⟩
    rintro ⟨ins, ios, hacc⟩
    exact absurd hacc.len (Nat.not_lt.2 (Nat.le_trans hlen (Nat.min_le_left ..)))
  rw [if_neg hlen]
  have hlt : format.length < iosMaxfmtParams := by omega
  unfold lwpWkspaceAllocate
  cases hb : p.place m.tries with
  | none =>
    rw [allocate_none hb]
    refine .inr ⟨ipcEnomem_neg, ?_, hm⟩
    rintro ⟨ins, ios, hacc⟩
    have := hacc.serves 0 (by omega)
    rw [Nat.add_zero, hb] at this
    cases this
  | some bufs =>
    rw [allocate_some hb]
    dsimp only
    by_cases hbig : ipcNumheaps ≤ fmtHeap ipcHid hId
    · rw [iosAlloc_invalid fun hv => Int.not_lt.2 hbig hv.2]
      refine .inr ⟨ipcEnomem_neg, ?_, holds_retaken hm (hk.fresh hb _)⟩
      rintro ⟨ins, ios, hacc⟩
      exact absurd hacc.hid.2 (Int.not_lt.2 hbig)
    have hhid : 0 ≤ fmtHeap ipcHid hId ∧ fmtHeap ipcHid hId < ipcNumheaps := ⟨Int.not_lt.1 hneg, Int.not_le.1 hbig⟩
    rw [iosAlloc_valid hhid (by omega)]
    cases ha : p.place (m.tries + 1) with
    | none =>
      rw [allocate_none ha]
      refine .inr ⟨ipcEnomem_neg, ?_, holds_retaken hm (hk.fresh hb _)⟩
      rintro ⟨ins, ios, hacc⟩
      have := hacc.serves 1 (by omega)
      rw [ha] at this
      cases this
    | some argp =>
      rw [allocate_some ha]
      have hstart := FmtInv.start hk hm hhid hb ha
      have hin := FmtInv.parseIn user args format 0 [] _ hstart
      have hgood : FmtGood p user args (m.tries + 2) 0 format ↔ ∃ ins ios, FmtAccepts p user args ipcHid hId m.tries format ins ios := by
        constructor
        · rintro ⟨ins, ios, hsplit, hshort, hserves⟩
          have htwo : p.Serves m.tries 2 := by
            intro k hk2
            obtain rfl | rfl : k = 0 ∨ k = 1 := by omega
            · rw [Nat.add_zero, hb]; rfl
            · rw [ha]; rfl
          exact ⟨ins, ios, hhid, hlt, hsplit, hshort, Places.Serves.add.2 ⟨htwo, hserves⟩⟩
        · rintro ⟨ins, ios, hacc⟩
          exact ⟨ins, ios, hacc.split, hacc.short, (Places.Serves.add.1 hacc.serves).2⟩
      dsimp only
      revert hin
      generalize fmtParseIn p user args format _ = res
      intro hin
      cases res with
      | ok st =>
        obtain ⟨hg, ins, ios, hsplit, hinv⟩ := hin
        obtain ⟨ins', ios', hacc⟩ := hgood.1 hg
        obtain ⟨rfl, rfl⟩ := hacc.split.unique hsplit
        have hall : fmtAll user args ins' ios' = [] ++ fmtItems user args false 0 ins' ++ fmtItems user args true (0 + fmtArgs ins') ios' := by
          rw [List.nil_append, Nat.zero_add]
          rfl
        rw [Nat.zero_add] at hinv
        exact .inl ⟨rfl, ins', ios', hacc, hall ▸ hinv⟩
      | error e => exact .inr ⟨hin.2.2, mt hgood.2 hin.1, hin.2.1.freed⟩

/-- **The format grammar.**  When all allocations succeed and the strings are short, a parse succeeds just on the formats of fewer than 32
characters that match; on success the counts, the vector and the buffers are those of its items; and a parse that fails, whatever
allocation failed, has freed once all that it took. -/
theorem ioctlv_format_grammar (p : Places) (user : Nat → UInt8) (args : Nat → Nat) (ipcHid : Int) (m : IosMem) (format : List Char)
    (hId : Int) :
    ((0 ≤ fmtHeap ipcHid hId ∧ fmtHeap ipcHid hId < ipcNumheaps) → (∀ n, (p.place n).isSome) →
      (∀ ins ios, FmtSplit format ins ios → FmtShort user args 0 ins) →
      ((iosIoctlvformatParse p user args ipcHid m format hId).2 = ipcOk ↔ format.length < 32 ∧ ∃ ins ios, FmtSplit format ins ios)) ∧
    ((iosIoctlvformatParse p user args ipcHid m format hId).2 = ipcOk → ∃ ins ios, FmtSplit format ins ios ∧
      (iosIoctlvformatParse p user args ipcHid m format hId).1.cntIn = ins.length ∧
      (iosIoctlvformatParse p user args ipcHid m format hId).1.cntIo = ios.length ∧
      (∀ k item, (fmtAll user args ins ios)[k]? = some item →
        (iosIoctlvformatParse p user args ipcHid m format hId).1.describes k item) ∧
      (iosIoctlvformatParse p user args ipcHid m format hId).1.numBufs = 1 + fmtBuffers (ins ++ ios)) ∧
    ((iosIoctlvformatParse p user args ipcHid m format hId).2 ≠ ipcOk →
      ∃ es, (iosIoctlvformatParse p user args ipcHid m format hId).1.mem.log = m.log ++ es ∧ Settled es) := by
  have hspec : FmtParsed p user args m.log [] ipcHid hId m.tries format (iosIoctlvformatParse p user args ipcHid m format hId) :=
    iosIoctlvformatParse_spec (fun b hb => absurd hb List.not_mem_nil) ⟨[], (List.append_nil _).symm, Holds.nil⟩ format
  revert hspec
  generalize iosIoctlvformatParse p user args ipcHid m format hId = got
  intro hspec
  refine ⟨fun hhid hall hshort => ⟨fun hok => ?_, ?_⟩, fun hok => ?_, fun hno => ?_⟩
  · rcases hspec with ⟨-, ins, ios, hacc, -⟩ | ⟨hneg, -⟩
    · exact ⟨hacc.len, ins, ios, hacc.split⟩
    · exact absurd hok (ne_of_lt hneg)
  · rintro ⟨hlen, ins, ios, hsplit⟩
    rcases hspec with ⟨hok, -⟩ | ⟨-, hno, -⟩
    · exact hok
    · exact absurd ⟨ins, ios, hhid, hlen, hsplit, hshort ins ios hsplit, fun k _ => hall _⟩ hno
  · rcases hspec with ⟨-, ins, ios, hacc, hinv⟩ | ⟨hneg, -⟩
    · refine ⟨ins, ios, hacc.split, hinv.cntIn, hinv.cntIo, hinv.describes, ?_⟩
      rw [hinv.numBufs, fmtAll, List.map_append, List.sum_append, fmtItems_map_buffers, fmtItems_map_buffers, fmtBuffers_append]
    · exact absurd hok (ne_of_lt hneg)
  · rcases hspec with ⟨hok, -⟩ | ⟨-, -, es, hlog, hh⟩
    · exact absurd hok hno
    · exact ⟨es, hlog, hh.settled_iff.2 rfl⟩

end Parse

/-! ## The calls -/

section Calls
variable {p : Places} {user : Nat → UInt8} {args : Nat → Nat} {log₀ : List (Event (IosArena × Nat))}
  {kept : List (IosArena × Nat)} {st : IoctlvFmt} {ipcHid hId : Int} {m : IosMem} {format : List Char}

theorem fmtReturnBufs_mem (hId : Int) (data : Nat → List UInt8) (bufs : Nat → IoctlvfmtBufent) (n i : Nat) (m : IosMem)
    (user : Nat → UInt8) : (fmtReturnBufs hId data bufs n i m user).1 = fmtFreeBufs hId bufs n i m := by
  induction n generalizing i m user with
  | zero => rfl
  | succ n ih =>
    rw [fmtReturnBufs, fmtFreeBufs]
    by_cases hb : (bufs i).ipcBuf ≠ 0
    · rw [if_pos hb, if_pos hb, ih]
    · rw [if_neg hb, if_neg hb, ih]

theorem ioctlvfmtCB_mem (st : IoctlvFmt) (cbdata : Nat) (user : Nat → UInt8) :
    (ioctlvfmtCB st cbdata user).1 = lwpWkspaceFree st.freeAndError.mem cbdata := by
  unfold ioctlvfmtCB IoctlvFmt.freeAndError
  dsimp only
  rw [fmtReturnBufs_mem]

/-- The request is no block of the call's: it is freed when it is not queued. -/
theorem FmtLive.requested (h : FmtLive p log₀ kept st) {m' : IosMem}
    (hm : iosAlloc p st.mem ipcHid ipcRequestsize = (m', none) ∨
      ∃ mr req, iosAlloc p st.mem ipcHid ipcRequestsize = (mr, some req) ∧ m' = iosFree mr ipcHid req) :
    FmtLive p log₀ kept { st with mem := m' } := by
  have howns : Owns p log₀ st.mem (st.blocks ++ kept) := ⟨h.known, h.live⟩
  have hrequested := howns.requested hm
  exact ⟨h.hid, h.bufp, hrequested.known, hrequested.live⟩

variable {cbdata : Nat}

theorem fmtParse_called (hc : p.place m.tries = some cbdata) (user : Nat → UInt8) (args : Nat → Nat) (ipcHid hId : Int)
    (format : List Char) : FmtParsed p user args m.log [(.wkspace, cbdata)] ipcHid hId (m.tries + 1) format
      (iosIoctlvformatParse p user args ipcHid { tries := m.tries + 1, log := m.log ++ [.alloc (.wkspace, cbdata)] } format hId) := by
  have hnil : p.Known m.tries [] := fun b hb => absurd hb List.not_mem_nil
  exact iosIoctlvformatParse_spec (hnil.cons hc _) ⟨[.alloc (.wkspace, cbdata)], rfl, Holds.nil.alloc List.not_mem_nil⟩ format

/-- **The synchronous call releases everything**, also when its request was queued. -/
theorem iosIoctlvFormat_settled (p : Places) (user : Nat → UInt8) (args : Nat → Nat) (ipcHid : Int) (m : IosMem) (s : IpcSys Nat)
    (format : List Char) (hId : Int) (answer : IosAnswer) :
    ∃ es, (iosIoctlvFormat p user args ipcHid m s format hId answer).mem.log = m.log ++ es ∧ Settled es := by
  unfold iosIoctlvFormat lwpWkspaceAllocate
  cases hc : p.place m.tries with
  | none =>
    rw [allocate_none hc]
    exact ⟨[], (List.append_nil _).symm, rfl⟩
  | some cbdata =>
    rw [allocate_some hc]
    have hspec := fmtParse_called hc user args ipcHid hId format
    dsimp only
    revert hspec
    generalize iosIoctlvformatParse p user args ipcHid _ format hId = got
    intro hspec
    rcases hspec with ⟨hok, ins, ios, hacc, hinv⟩ | ⟨hneg, -, hlog⟩
    · rw [if_neg (by rw [hok]; decide)]
      dsimp only
      rw [ioctlvfmtCB_mem]
      have hlive := hinv.live.requested (iosIoctlvCall_mem p got.1.mem ipcHid s got.1.call answer.result)
      exact holds_last (hlive.congr rfl rfl rfl rfl rfl rfl).freed
    · rw [if_pos hneg]
      exact holds_last hlog

/-- **A call whose data nothing frees**: the format is parsed, and then no request can be allocated, or the ring is full. -/
def FmtStranded (p : Places) (user : Nat → UInt8) (args : Nat → Nat) (ipcHid hId : Int) (t : Nat) (s : IpcSys Nat)
    (format : List Char) : Prop :=
  (p.place t).isSome ∧ ∃ ins ios, FmtAccepts p user args ipcHid hId (t + 1) format ins ios ∧
    (¬ p.Requests ipcHid (t + 3 + fmtBuffers (ins ++ ios)) ∨ 16 ≤ s.cnt)

/-- A request that is not queued leaves the callback data, the list and the buffers. -/
theorem FmtLive.stranded (h : FmtLive p log₀ [(.wkspace, cbdata)] st) : ¬ ∃ es, st.mem.log = log₀ ++ es ∧ Settled es := by
  rintro ⟨es, hlog, hs⟩
  obtain ⟨es', hlog', hh⟩ := h.live
  obtain rfl : es = es' := List.append_cancel_left (hlog.symm.trans hlog')
  have := hh.settled_iff.1 hs
  exact absurd (congrArg List.length this) (by simp)

theorem iosIoctlvFormatAsync_settled (p : Places) (user : Nat → UInt8) (args : Nat → Nat) (ipcHid : Int) (m : IosMem) (s : IpcSys Nat)
    (format : List Char) (hId : Int) :
    ((iosIoctlvFormatAsync p user args ipcHid m s format hId).ret < 0 ∧
        (iosIoctlvFormatAsync p user args ipcHid m s format hId).queued = false →
      ∃ es, (iosIoctlvFormatAsync p user args ipcHid m s format hId).mem.log = m.log ++ es ∧ Settled es) ↔
    ¬ FmtStranded p user args ipcHid hId m.tries s format := by
  unfold iosIoctlvFormatAsync lwpWkspaceAllocate
  cases hc : p.place m.tries with
  | none =>
    rw [allocate_none hc]
    refine iff_of_true (fun _ => ⟨[], (List.append_nil _).symm, rfl⟩) ?_
    rintro ⟨hs, -⟩
    rw [hc] at hs
    cases hs
  | some cbdata =>
    rw [allocate_some hc]
    have hspec := fmtParse_called hc user args ipcHid hId format
    dsimp only
    revert hspec
    generalize iosIoctlvformatParse p user args ipcHid _ format hId = got
    intro hspec
    rcases hspec with ⟨hok, ins, ios, hacc, hinv⟩ | ⟨hneg, hno, hlog⟩
    · have htries : got.1.mem.tries = m.tries + 3 + fmtBuffers (ins ++ ios) := by
        rw [hinv.tries, fmtAll, List.map_append, List.sum_append, fmtItems_map_buffers, fmtItems_map_buffers, fmtBuffers_append]
      have hreq : ((iosAlloc p got.1.mem ipcHid ipcRequestsize).2.isSome ∧ s.cnt < 16) ↔
          ¬ FmtStranded p user args ipcHid hId m.tries s format := by
        rw [iosAlloc_request_iff, htries]
        constructor
        · rintro ⟨hr, hlt⟩ ⟨-, ins', ios', hacc', hbad⟩
          obtain ⟨rfl, rfl⟩ := hacc.split.unique hacc'.split
          rcases hbad with hbad | hfull
          · exact hbad hr
          · exact absurd hlt (Nat.not_lt.2 hfull)
        · intro hns
          by_contra hbad
          refine hns ⟨by rw [hc]; rfl, ins, ios, hacc, ?_⟩
          by_cases hr : p.Requests ipcHid (m.tries + 3 + fmtBuffers (ins ++ ios))
          · exact .inr (Nat.le_of_not_lt fun hlt => hbad ⟨hr, hlt⟩)
          · exact .inl hr
      rw [if_neg (by rw [hok]; decide), ← hreq]
      dsimp only
      by_cases hq : (iosAlloc p got.1.mem ipcHid ipcRequestsize).2.isSome ∧ s.cnt < 16
      · refine iff_of_true (fun hl => ?_) hq
        rw [decide_eq_true hq] at hl
        cases hl.2
      · obtain ⟨hm, hret⟩ := iosIoctlvAsync_mem p got.1.mem ipcHid s got.1.call hq
        refine iff_of_false (fun hl => ?_) hq
        exact (hinv.live.requested hm).stranded (hl ⟨hret, decide_eq_false hq⟩)
    · rw [if_pos hneg]
      refine iff_of_true (fun _ => holds_last hlog) ?_
      rintro ⟨-, ins, ios, hacc, -⟩
      exact hno ⟨ins, ios, hacc⟩

/-- **A formatted call that fails before its request is queued** has released what it allocated: the synchronous one always, and the
asynchronous one unless its format was parsed. -/
theorem ioctlv_format_released (p : Places) (user : Nat → UInt8) (args : Nat → Nat) (ipcHid : Int) (m : IosMem) (s : IpcSys Nat)
    (format : List Char) (hId : Int) (answer : IosAnswer) :
    ((iosIoctlvFormat p user args ipcHid m s format hId answer).ret < 0 ∧
        (iosIoctlvFormat p user args ipcHid m s format hId answer).queued = false →
      ∃ es, (iosIoctlvFormat p user args ipcHid m s format hId answer).mem.log = m.log ++ es ∧ Settled es) ∧
    (((iosIoctlvFormatAsync p user args ipcHid m s format hId).ret < 0 ∧
        (iosIoctlvFormatAsync p user args ipcHid m s format hId).queued = false →
      ∃ es, (iosIoctlvFormatAsync p user args ipcHid m s format hId).mem.log = m.log ++ es ∧ Settled es) ↔
    ¬ FmtStranded p user args ipcHid hId m.tries s format) :=
  ⟨fun _ => iosIoctlvFormat_settled p user args ipcHid m s format hId answer,
    iosIoctlvFormatAsync_settled p user args ipcHid m s format hId⟩

/-- Allocators that run out after `n` blocks. -/
def placesFirst (n : Nat) : Places where
  place k := if k < n then some (k + 1) else none
  pos k a h := by
    split at h
    · cases h; omega
    · cases h
  inj j k a h h' := by
    split at h
    · split at h'
      · cases h; cases h'; rfl
      · cases h'
    · cases h

/-- There is room for the data of the call and for its item, but not for its request. -/
theorem ioctlv_format_stranded :
    (iosIoctlvFormatAsync (placesFirst 4) (fun _ => 0) (fun _ => 0) 0 ⟨0, []⟩ (ipcStart fun _ => ioctlvReq false) ['i'] 0).ret < 0 ∧
    (iosIoctlvFormatAsync (placesFirst 4) (fun _ => 0) (fun _ => 0) 0 ⟨0, []⟩ (ipcStart fun _ => ioctlvReq false) ['i'] 0).queued =
      false ∧
    ¬ ∃ es, (iosIoctlvFormatAsync (placesFirst 4) (fun _ => 0) (fun _ => 0) 0 ⟨0, []⟩ (ipcStart fun _ => ioctlvReq false)
      ['i'] 0).mem.log = ([] : List (Event (IosArena × Nat))) ++ es ∧ Settled es := by
  refine ⟨by decide +kernel, by decide +kernel, ?_⟩
  rintro ⟨es, hlog, hs⟩
  rw [List.nil_append] at hlog
  rw [← hlog] at hs
  exact absurd hs (by decide +kernel)

end Calls

end Libogc
