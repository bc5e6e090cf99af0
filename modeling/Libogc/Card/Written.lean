import Libogc.Card.Cursor
/-!
# Written — what a write leaves on the card

A write erases and programs one sector after the other while there is a length left, and looks at the length only behind the first one.
So a write of no bytes erases a sector (`card_write`).
-/
namespace Libogc

/-- The request is taken: the seek succeeds and the arguments are multiples of a sector. -/
def CardFs.accepts (s : CardFs) (len offset : Nat) : Prop :=
  0 ≤ (cardSeek s.card s.file (s32 len) (s32 offset)).2 ∧ ¬ cardMisaligned s.card.sector_size len offset

instance (s : CardFs) (len offset : Nat) : Decidable (s.accepts len offset) := inferInstanceAs (Decidable (_ ∧ _))

/-- No step fails. -/
structure CardWrites.Succeed (writes : CardWrites) : Prop where
  erase : ∀ i, 0 ≤ writes.erase i
  write : ∀ i, 0 ≤ writes.write i
  dir : 0 ≤ writes.dir

/-- **What a write has to do**: the bytes of the range are those of the buffer, the others of the data blocks are as they were, and of the
directory only the file's time, the counter and the checksums are not.  On the card the directory is written over the copy that was current. -/
structure CardWritten (xs : List Nat) (s s' : CardFs) (result : Int) (buf : Nat → BitVec 8) (len offset : Nat) : Prop where
  result : 0 ≤ result
  bytes : ∀ j < len, ∃ b, xs[(offset + j) / s.card.sector_size]? = some b ∧
    s'.flash (b * s.card.sector_size + (offset + j) % s.card.sector_size) = buf j
  others : ∀ a, CARD_SYSAREA * s.card.sector_size ≤ a → a < s.card.blocks * s.card.sector_size →
    (∀ j < len, ∀ b, xs[(offset + j) / s.card.sector_size]? = some b → a ≠ b * s.card.sector_size + (offset + j) % s.card.sector_size) →
      s'.flash a = s.flash a
  file : s'.card.entry s.file = { s.card.entry s.file with lastmodified := (s'.card.entry s.file).lastmodified }
  files : ∀ i, i ≠ s.file.filenum.toNat → s'.card.dirblock.entries i = s.card.dirblock.entries i
  pad : s'.card.dirblock.pad = s.card.dirblock.pad
  saved : s'.dirs s.card.curr_dir = s'.card.dirblock ∧ ∀ copy, copy ≠ s.card.curr_dir → s'.dirs copy = s.dirs copy

/-! ## Sectors -/

/-- The blocks of a list are stored one after the other. -/
def cardStores (buf : Nat → BitVec 8) (size : Nat) : List Nat → Nat → Flash.Mem → Flash.Mem
  | [], _, m => m
  | b :: bs, usr, m => cardStores buf size bs (usr + size) (Flash.store m (b * size) size fun i => buf (usr + i))

section Stores
variable {buf : Nat → BitVec 8} {size a : Nat}

theorem cardStores_other : ∀ {bs : List Nat} {usr : Nat} {m : Flash.Mem}, (∀ b ∈ bs, a < b * size ∨ b * size + size ≤ a) →
    cardStores buf size bs usr m a = m a
  | [], _, _, _ => rfl
  | b :: bs, usr, m, h => by
    rw [cardStores, cardStores_other fun b' hb' => h b' (List.mem_cons_of_mem _ hb')]
    exact Flash.store_ne (h b List.mem_cons_self)

theorem cardBlock_apart {b b' r : Nat} (hne : b ≠ b') (hr : r < size) : b * size + r < b' * size ∨ b' * size + size ≤ b * size + r := by
  rcases Nat.lt_or_gt_of_ne hne with hlt | hlt
  · have := Nat.mul_le_mul_right size hlt
    rw [Nat.succ_mul] at this
    omega
  · have := Nat.mul_le_mul_right size hlt
    rw [Nat.succ_mul] at this
    omega

theorem cardStores_at {r : Nat} (hr : r < size) : ∀ {bs : List Nat} {usr k b : Nat} {m : Flash.Mem}, bs.Nodup → bs[k]? = some b →
    cardStores buf size bs usr m (b * size + r) = buf (usr + k * size + r)
  | [], _, _, _, _, _, hk => by cases hk
  | b' :: bs, usr, 0, b, m, hnd, hk => by
    have hb : b' = b := Option.some.inj hk
    subst hb
    have hother : ∀ c ∈ bs, b' * size + r < c * size ∨ c * size + size ≤ b' * size + r := fun c hc =>
      cardBlock_apart (fun he => (List.nodup_cons.1 hnd).1 (he ▸ hc)) hr
    rw [cardStores, cardStores_other hother, Flash.store_at hr, Nat.zero_mul, Nat.add_zero]
  | b' :: bs, usr, k + 1, b, m, hnd, hk => by
    rw [cardStores, cardStores_at hr (List.nodup_cons.1 hnd).2 hk]
    congr 1
    rw [Nat.succ_mul]
    omega

end Stores

theorem cardBlockwrite_eq (buf : Nat → BitVec 8) : ∀ {n addr usr : Nat} {m : Flash.Mem}, addr + 128 * n ≤ 2 ^ 24 →
    cardBlockwrite buf n addr usr m = Flash.program m addr (128 * n) fun i => buf (usr + i)
  | 0, addr, usr, m, _ => Flash.program_zero.symm
  | n + 1, addr, usr, m, h => by
    have haddr : cardAddr addr = addr := Nat.mod_eq_of_lt (by omega)
    rw [cardBlockwrite, cardBlockwrite_eq buf (by omega), haddr]
    have happend := @Flash.program_append m addr 128 (128 * n) fun i => buf (usr + i)
    rw [show 128 * (n + 1) = 128 + 128 * n by omega, ← happend]
    simp only [Nat.add_assoc]

section Write
variable {s : CardFs} {xs : List Nat}

/-- **A sector that is erased and programmed** has the bytes of the buffer. -/
theorem CardMounted.sector_write (h : CardMounted s.card) (buf : Nat → BitVec 8) (usr : Nat) {b : Nat} (hb : ¬ s.card.outside b) :
    cardBlockwrite buf (s.card.sector_size >>> 7) (b * s.card.sector_size) usr
        (Flash.erase s.flash (cardAddr (b * s.card.sector_size)) s.card.sector_size) =
      Flash.store s.flash (b * s.card.sector_size) s.card.sector_size fun i => buf (usr + i) := by
  have hlt : b < s.card.blocks := by
    unfold CardBlock.outside at hb
    omega
  have hend : b * s.card.sector_size + s.card.sector_size ≤ 2 ^ 24 := by
    have := Nat.mul_le_mul_right s.card.sector_size hlt
    rw [Nat.succ_mul] at this
    exact Nat.le_trans this h.size
  have hpages : 128 * (s.card.sector_size >>> 7) = s.card.sector_size := by
    obtain ⟨k, hk, -, hsector⟩ := h.sector
    rw [hsector, Nat.shiftRight_eq_div_pow]
    exact Nat.mul_div_cancel' (Nat.pow_dvd_pow 2 (by omega : 7 ≤ k))
  have haddr : cardAddr (b * s.card.sector_size) = b * s.card.sector_size := by
    have hpos := h.pos
    exact Nat.mod_eq_of_lt (by omega)
  rw [cardBlockwrite_eq buf (by rw [hpages]; exact hend), hpages, haddr, Flash.program_erase]

theorem take_drop_succ {i m b : Nat} (h : xs[i]? = some b) : (xs.drop i).take (m + 1) = b :: (xs.drop (i + 1)).take m := by
  obtain ⟨hlt, hb⟩ := List.getElem?_eq_some_iff.1 h
  rw [List.drop_eq_getElem_cons hlt, hb, List.take_succ_cons]

/-- The first sector is written whatever the length; only then is the length looked at. -/
theorem CardFiled.writeLoop_store (h : CardFiled s.card s.file.filenum xs) (buf : Nat → BitVec 8) (now : Nat) {writes : CardWrites}
    (hs : writes.Succeed) {i n k u : Nat} (hfile : s.file.offset = (i * s.card.sector_size : Nat)) (hi : xs[i]? = some s.file.iblock)
    (hlen : 0 ≤ s.file.len) : cardWriteLoop buf now writes (n + 1) k u s =
      let flash := Flash.store s.flash (s.file.iblock * s.card.sector_size) s.card.sector_size fun i => buf (u + i)
      let len := s32 (s.file.len - s.card.sector_size)
      if len ≤ 0 then CardFs.finish { s with flash := flash, file := { s.file with len := len } } now writes.dir
      else
        let file' := { s.file with len := len, offset := ((i + 1) * s.card.sector_size : Nat), iblock := s.card.nextblock s.file }
        if s.card.outside (s.card.nextblock s.file) then ({ s with flash := flash, file := file' }, CARD_ERROR_BROKEN)
        else cardWriteLoop buf now writes n (k + 1) (u + s.card.sector_size) { s with flash := flash, file := file' } := by
  have hdiv := Nat.mul_div_cancel i h.mounted.pos
  rw [h.writeLoop_step buf now writes hfile (by rw [hdiv]; exact hi)]
  dsimp only
  rw [if_neg (Int.not_lt.2 (hs.erase k)), if_neg (Int.not_lt.2 (hs.write k)), if_neg (Int.not_lt.2 hlen),
    h.mounted.sector_write buf u (h.outside_not hi), Nat.succ_mul]

/-- **The run of a write** of some sectors that the file has: they are stored, and the directory is updated. -/
theorem CardFiled.writeLoop_run (buf : Nat → BitVec 8) (now : Nat) {writes : CardWrites} (hs : writes.Succeed) :
    ∀ {m n k u i : Nat} {s : CardFs}, CardFiled s.card s.file.filenum xs → s.file.offset = (i * s.card.sector_size : Nat) →
      xs[i]? = some s.file.iblock → s.file.len = ((m + 1) * s.card.sector_size : Nat) → i + m < xs.length → m < n →
        ∃ file', file'.filenum = s.file.filenum ∧ cardWriteLoop buf now writes n k u s = CardFs.finish
          { s with flash := cardStores buf s.card.sector_size ((xs.drop i).take (m + 1)) u s.flash, file := file' } now writes.dir := by
  intro m
  induction m with
  | zero =>
    intro n k u i s h hfile hi hlen hin hn
    obtain ⟨n, rfl⟩ : ∃ n', n = n' + 1 := ⟨n - 1, by omega⟩
    have hzero : s32 (s.file.len - s.card.sector_size) = 0 := by
      rw [hlen, Nat.zero_add, Nat.one_mul, Int.sub_self]
      rfl
    rw [h.writeLoop_store buf now hs hfile hi (by omega), hzero, take_drop_succ hi, List.take_zero]
    exact ⟨{ s.file with len := 0 }, rfl, rfl⟩
  | succ m ih =>
    intro n k u i s h hfile hi hlen hin hn
    obtain ⟨n, rfl⟩ : ∃ n', n = n' + 1 := ⟨n - 1, by omega⟩
    have hsize := h.size
    have hpos := h.mounted.pos
    have hmore : s32 (s.file.len - s.card.sector_size) = ((m + 1) * s.card.sector_size : Nat) := by
      have hle := Nat.mul_le_mul_right s.card.sector_size (by omega : m + 1 ≤ xs.length)
      have hdiff : (((m + 1 + 1) * s.card.sector_size : Nat) : Int) - s.card.sector_size = ((m + 1) * s.card.sector_size : Nat) := by
        rw [Nat.succ_mul (m + 1)]
        omega
      rw [hlen, hdiff]
      exact s32_of_range (by omega) (by omega)
    obtain ⟨hout, hnext⟩ := h.next hi
    have hno : ¬ s.card.outside (s.card.nextblock s.file) := fun hno => by
      have := hout.1 hno
      omega
    have hleft : ¬ (((m + 1) * s.card.sector_size : Nat) : Int) ≤ 0 := by
      have := Nat.mul_pos (by omega : 0 < m + 1) hpos
      omega
    rw [h.writeLoop_store buf now hs hfile hi (by omega), hmore]
    dsimp only
    rw [if_neg hleft, if_neg hno, take_drop_succ hi]
    obtain ⟨file', hnum, hrun⟩ := @ih n (k + 1) (u + s.card.sector_size) (i + 1)
      { s with
        flash := Flash.store s.flash (s.file.iblock * s.card.sector_size) s.card.sector_size fun i => buf (u + i)
        file :=
          { s.file with
            len := ((m + 1) * s.card.sector_size : Nat), offset := ((i + 1) * s.card.sector_size : Nat), iblock := s.card.nextblock s.file } }
      h rfl (hnext hno) rfl (by omega) (by omega)
    exact ⟨file', hnum, hrun⟩

theorem CardFs.finish_written {file' : CardFile} (hnum : file'.filenum = s.file.filenum) {flash : Flash.Mem} {buf : Nat → BitVec 8}
    {len offset now : Nat} {dir : Int} (hdir : 0 ≤ dir)
    (hbytes : ∀ j < len, ∃ b, xs[(offset + j) / s.card.sector_size]? = some b ∧
      flash (b * s.card.sector_size + (offset + j) % s.card.sector_size) = buf j)
    (hothers : ∀ a, CARD_SYSAREA * s.card.sector_size ≤ a → a < s.card.blocks * s.card.sector_size →
      (∀ j < len, ∀ b, xs[(offset + j) / s.card.sector_size]? = some b → a ≠ b * s.card.sector_size + (offset + j) % s.card.sector_size) →
        flash a = s.flash a) :
    CardWritten xs s (CardFs.finish { s with flash := flash, file := file' } now dir).1
      (CardFs.finish { s with flash := flash, file := file' } now dir).2 buf len offset := by
  rw [CardFs.finish_eq _ _ hdir]
  obtain ⟨hentries, hpad⟩ := CardFs.written_entries { s with flash := flash, file := file' } now
  dsimp only at hentries hpad
  rw [hnum] at hentries
  generalize CardFs.written { s with flash := flash, file := file' } now = d at hentries hpad
  refine ⟨hdir, hbytes, hothers, ?_, fun i hi => ?_, hpad, Function.update_self .., fun copy hcopy => Function.update_of_ne hcopy _ _⟩
  · show d.entries s.file.filenum.toNat = { s.card.entry s.file with lastmodified := (d.entries s.file.filenum.toNat).lastmodified }
    rw [hentries, Function.update_self]
    rfl
  · show d.entries i = _
    rw [hentries, Function.update_of_ne hi]

variable {buf : Nat → BitVec 8} {len offset now : Nat} {writes : CardWrites}

/-- What a request that is taken begins with. -/
structure CardBegun (xs : List Nat) (s : CardFs) (len offset : Nat) (file : CardFile) : Prop where
  filenum : file.filenum = s.file.filenum
  offset_eq : file.offset = (offset / s.card.sector_size * s.card.sector_size : Nat)
  iblock : xs[offset / s.card.sector_size]? = some file.iblock
  len_eq : file.len = s32 len
  aligned : offset / s.card.sector_size * s.card.sector_size = offset ∧ len / s.card.sector_size * s.card.sector_size = len

theorem CardKept.begin (h : CardKept xs s) (buf : Nat → BitVec 8) (now : Nat) (writes : CardWrites) (hacc : s.accepts len offset) (ho : offset < 2 ^ 32) : ∃ file, CardBegun xs s len offset file ∧
    cardWrite s buf len offset now writes = cardWriteLoop buf now writes (file.len.toNat + 1) 0 0 { s with file := file } := by
  obtain ⟨hseek, hmis⟩ := hacc
  rcases h.1.seek h.2 ho len with ⟨-, hlimit⟩ | ⟨-, hsought⟩
  · rw [hlimit] at hseek
    exact absurd hseek (by decide : ¬ 0 ≤ CARD_ERROR_LIMIT)
  · have hready : (cardSeek s.card s.file (s32 len) (s32 offset)).2 = CARD_ERROR_READY := by
      by_contra hno
      rw [hsought.broken hno] at hseek
      exact absurd hseek (by decide)
    have hlen : len % s.card.sector_size = 0 := by
      have hno := not_not.1 fun hne => hmis (.inl hne)
      rwa [h.1.mounted.mask] at hno
    have hoff : offset % s.card.sector_size = 0 := by
      obtain rfl | hpos := Nat.eq_zero_or_pos offset
      · exact Nat.zero_mod _
      · have hno := not_not.1 fun hne => hmis (.inr ⟨hpos, hne⟩)
        rwa [h.1.mounted.mask] at hno
    have hoffset := Nat.div_mul_cancel (Nat.dvd_of_mod_eq_zero hoff)
    refine ⟨_, ⟨hsought.filenum_eq, ?_, hsought.iblock hready, hsought.len_eq, hoffset, Nat.div_mul_cancel (Nat.dvd_of_mod_eq_zero hlen)⟩, ?_⟩
    · rw [hoffset]
      exact hsought.offset_eq hready
    · unfold cardWrite
      dsimp only
      rw [if_neg (Int.not_lt.2 hseek), if_neg hmis]

theorem CardKept.write_beyond (h : CardKept xs s) (hb : xs[offset / s.card.sector_size]? ≠ none)
    (hlt : xs.length * s.card.sector_size < offset + len) {s' : CardFs} {result : Int} : ¬ CardWritten xs s s' result buf len offset := by
  intro hw
  have hoff : offset < xs.length * s.card.sector_size := by
    rw [Ne, List.getElem?_eq_none_iff, Nat.not_le] at hb
    exact (Nat.div_lt_iff_lt_mul h.1.mounted.pos).1 hb
  obtain ⟨b, hnone, -⟩ := hw.bytes (xs.length * s.card.sector_size - offset) (by omega)
  rw [show offset + (xs.length * s.card.sector_size - offset) = xs.length * s.card.sector_size by omega,
    Nat.mul_div_cancel _ h.1.mounted.pos, List.getElem?_eq_none (Nat.le_refl _)] at hnone
  cases hnone

theorem getElem?_take_drop {i m k : Nat} (hk : k < m) : ((xs.drop i).take m)[k]? = xs[i + k]? := by
  rw [List.getElem?_take_of_lt hk, List.getElem?_drop]

theorem CardMounted.range (h : CardMounted s.card) {i : Nat} (ho : i * s.card.sector_size = offset) (j : Nat) :
    (offset + j) / s.card.sector_size = i + j / s.card.sector_size ∧ (offset + j) % s.card.sector_size = j % s.card.sector_size := by
  rw [← ho, Nat.add_comm (i * s.card.sector_size) j, Nat.add_mul_div_right _ _ h.pos, Nat.add_mul_mod_self_right, Nat.add_comm i]
  exact ⟨rfl, rfl⟩

theorem CardKept.write_within (h : CardKept xs s) (hacc : s.accepts len offset) (hs : writes.Succeed) (hpos : 0 < len)
    (hle : offset + len ≤ xs.length * s.card.sector_size) :
    CardWritten xs s (cardWrite s buf len offset now writes).1 (cardWrite s buf len offset now writes).2 buf len offset := by
  have hsize := h.1.size
  have hss := h.1.mounted.pos
  obtain ⟨file, hb, hwrite⟩ := h.begin buf now writes hacc (by omega)
  obtain ⟨hoffset, hlen⟩ := hb.aligned
  have hiblock := hb.iblock
  have hfileoff := hb.offset_eq
  have hfilelen : file.len = (len : Int) := by
    rw [hb.len_eq]
    exact s32_of_range (by omega) (by omega)
  generalize hi : offset / s.card.sector_size = i at hoffset hiblock hfileoff
  have hne : len / s.card.sector_size ≠ 0 := fun h0 => by
    rw [h0, Nat.zero_mul] at hlen
    omega
  obtain ⟨m, hm⟩ := Nat.exists_eq_add_one_of_ne_zero hne
  rw [hm] at hlen
  have hin : i + (m + 1) ≤ xs.length := by
    refine Nat.le_of_mul_le_mul_right ?_ hss
    rw [Nat.add_mul, hoffset, hlen]
    exact hle
  have hfuel : m < file.len.toNat + 1 := by
    have := Nat.le_mul_of_pos_right (m + 1) hss
    rw [hfilelen, Int.toNat_natCast, ← hlen]
    omega
  have hfiled : CardFiled s.card file.filenum xs := by
    rw [hb.filenum]
    exact h.1
  obtain ⟨file', hnum, hrun⟩ := CardFiled.writeLoop_run buf now hs (k := 0) (u := 0) (s := { s with file := file }) hfiled hfileoff hiblock
    (by rw [hlen]; exact hfilelen) (by omega) hfuel
  rw [hwrite, hrun]
  refine CardFs.finish_written (hnum.trans hb.filenum) hs.dir (fun j hj => ?_) fun a hlow hhigh hnot => ?_
  · obtain ⟨hdiv, hmod⟩ := h.1.mounted.range hoffset j
    have hk : j / s.card.sector_size < m + 1 := by
      rw [Nat.div_lt_iff_lt_mul hss, hlen]
      exact hj
    have hk' : i + j / s.card.sector_size < xs.length := by omega
    refine ⟨xs[i + j / s.card.sector_size], ?_, ?_⟩
    · rw [hdiv]
      exact List.getElem?_eq_getElem hk'
    · have hnd : ((xs.drop i).take (m + 1)).Nodup := h.1.nodup.sublist ((List.take_sublist ..).trans (List.drop_sublist ..))
      have hget : ((xs.drop i).take (m + 1))[j / s.card.sector_size]? = some xs[i + j / s.card.sector_size] := by
        rw [getElem?_take_drop hk]
        exact List.getElem?_eq_getElem hk'
      rw [hmod]
      refine (cardStores_at (Nat.mod_lt j hss) hnd hget).trans (congrArg buf ?_)
      rw [Nat.zero_add]
      exact Nat.div_add_mod' ..
  · refine cardStores_other fun b hmem => ?_
    show a < b * s.card.sector_size ∨ b * s.card.sector_size + s.card.sector_size ≤ a
    by_contra hinside
    -- a byte of a block that is stored is in the range
    obtain ⟨k, hk, hkb⟩ := List.getElem_of_mem hmem
    have hkm : k < m + 1 := Nat.lt_of_lt_of_le hk (List.length_take_le ..)
    have hget : xs[i + k]? = some b := by
      rw [← getElem?_take_drop hkm, List.getElem?_eq_getElem hk, hkb]
    obtain ⟨r, hr⟩ : ∃ r, a = b * s.card.sector_size + r := ⟨a - b * s.card.sector_size, by omega⟩
    have hrlt : r < s.card.sector_size := by omega
    obtain ⟨hdiv, hmod⟩ := h.1.mounted.range hoffset (k * s.card.sector_size + r)
    have hkr : (k * s.card.sector_size + r) / s.card.sector_size = k ∧ (k * s.card.sector_size + r) % s.card.sector_size = r := by
      rw [Nat.add_comm, Nat.add_mul_div_right _ _ hss, Nat.add_mul_mod_self_right, Nat.div_eq_of_lt hrlt, Nat.mod_eq_of_lt hrlt, Nat.zero_add]
      exact ⟨rfl, rfl⟩
    refine hnot (k * s.card.sector_size + r) ?_ b ?_ ?_
    · have := Nat.mul_le_mul_right s.card.sector_size (Nat.le_of_lt_succ hkm)
      rw [Nat.succ_mul] at hlen
      omega
    · rw [hdiv, hkr.1]
      exact hget
    · rw [hmod, hkr.2]
      exact hr

/-- **A write of no bytes** does what it has to only if the sector that it erases has the bytes of the buffer already. -/
theorem CardKept.write_none (h : CardKept xs s) (hacc : s.accepts 0 offset) (hs : writes.Succeed) (ho : offset < 2 ^ 32) :
    CardWritten xs s (cardWrite s buf 0 offset now writes).1 (cardWrite s buf 0 offset now writes).2 buf 0 offset ↔
      ∃ b, xs[offset / s.card.sector_size]? = some b ∧ ∀ j < s.card.sector_size, s.flash (b * s.card.sector_size + j) = buf j := by
  obtain ⟨file, hb, hwrite⟩ := h.begin buf now writes hacc ho
  have hss := h.1.mounted.pos
  have hle := h.1.mounted.le
  have hfiled : CardFiled s.card file.filenum xs := by
    rw [hb.filenum]
    exact h.1
  have hlen : file.len = 0 := hb.len_eq.trans rfl
  have hneg : s32 (file.len - s.card.sector_size) = -(s.card.sector_size : Int) := by
    rw [hlen, Int.zero_sub]
    exact s32_of_range (by omega) (by omega)
  have hstore := CardFiled.writeLoop_store (s := { s with file := file }) hfiled buf now hs (n := 0) (k := 0) (u := 0) hb.offset_eq hb.iblock
    (Int.le_of_eq hlen.symm)
  dsimp only at hstore
  rw [hneg, if_pos (by omega)] at hstore
  rw [hwrite, hlen, Int.toNat_zero, Nat.zero_add, hstore]
  simp only [Nat.zero_add]
  constructor
  · intro hw
    refine ⟨file.iblock, hb.iblock, fun j hj => ?_⟩
    have hin : ¬ s.card.outside file.iblock := h.1.outside_not hb.iblock
    unfold CardBlock.outside at hin
    have hlow := Nat.mul_le_mul_right s.card.sector_size (by omega : CARD_SYSAREA ≤ file.iblock)
    have hhigh := Nat.mul_le_mul_right s.card.sector_size (by omega : file.iblock + 1 ≤ s.card.blocks)
    rw [Nat.succ_mul] at hhigh
    have hsame := hw.others (file.iblock * s.card.sector_size + j) (by omega) (by omega) fun _ hno => absurd hno (Nat.not_lt_zero _)
    rw [CardFs.finish_eq _ _ hs.dir] at hsame
    exact hsame.symm.trans (Flash.store_at hj)
  · intro ⟨b, hget, hsame⟩
    have hnum : ({ file with len := -(s.card.sector_size : Int) } : CardFile).filenum = s.file.filenum := hb.filenum
    refine CardFs.finish_written hnum hs.dir (fun _ hno => absurd hno (Nat.not_lt_zero _)) fun a _ _ _ => ?_
    have hfb : file.iblock = b := Option.some.inj (hb.iblock.symm.trans hget)
    rw [hfb]
    by_cases hin : b * s.card.sector_size ≤ a ∧ a < b * s.card.sector_size + s.card.sector_size
    · obtain ⟨r, hr⟩ : ∃ r, a = b * s.card.sector_size + r := ⟨a - b * s.card.sector_size, by omega⟩
      rw [hr, Flash.store_at (by omega), hsame r (by omega)]
    · exact Flash.store_ne (by omega)

/-- The range is within the file and not empty; or it is empty, and the sector there has the bytes that the buffer has for a sector. -/
def cardWriteExact (xs : List Nat) (s : CardFs) (buf : Nat → BitVec 8) (len offset : Nat) : Prop :=
  0 < len ∧ offset + len ≤ xs.length * s.card.sector_size ∨
    len = 0 ∧ ∃ b, xs[offset / s.card.sector_size]? = some b ∧ ∀ j < s.card.sector_size, s.flash (b * s.card.sector_size + j) = buf j

/-- **A write** that is taken, and of which no step fails, does what it has to exactly under this condition. -/
theorem card_write (h : CardKept xs s) (hacc : s.accepts len offset) (hs : writes.Succeed) (ho : offset < 2 ^ 32) (buf : Nat → BitVec 8)
    (now : Nat) : CardWritten xs s (cardWrite s buf len offset now writes).1 (cardWrite s buf len offset now writes).2 buf len offset ↔
      cardWriteExact xs s buf len offset := by
  obtain rfl | hpos := Nat.eq_zero_or_pos len
  · rw [h.write_none hacc hs ho]
    exact ⟨fun hsame => .inr ⟨rfl, hsame⟩, fun hex => hex.elim (fun hlt => absurd hlt.1 (Nat.lt_irrefl 0)) And.right⟩
  · by_cases hle : offset + len ≤ xs.length * s.card.sector_size
    · exact iff_of_true (h.write_within hacc hs hpos hle) (.inl ⟨hpos, hle⟩)
    · obtain ⟨file, hb, -⟩ := h.begin buf now writes hacc ho
      refine iff_of_false (h.write_beyond ?_ (Nat.not_le.1 hle)) fun hex => hex.elim (fun hin => hle hin.2) fun hzero => ?_
      · rw [hb.iblock]
        exact Option.some_ne_none _
      · exact absurd hzero.1 (Nat.ne_of_gt hpos)

end Write

/-- All steps of a write succeed. -/
def cardWrites0 : CardWrites := ⟨fun _ => 0, fun _ => 0, 0⟩

theorem cardWrites0_succeed : cardWrites0.Succeed := ⟨fun _ => Int.le_refl 0, fun _ => Int.le_refl 0, Int.le_refl 0⟩

theorem card_write_two : CardWritten [5, 7] cardFs0 (cardWrite cardFs0 (fun _ => 1) 0x2000 0x2000 0 cardWrites0).1
    (cardWrite cardFs0 (fun _ => 1) 0x2000 0x2000 0 cardWrites0).2 (fun _ => 1) 0x2000 0x2000 ↔
      cardWriteExact [5, 7] cardFs0 (fun _ => 1) 0x2000 0x2000 :=
  card_write cardFs0_opened.kept (by decide) cardWrites0_succeed (by decide) _ _

/-- A write of no bytes to a file of zeros puts ones in it. -/
theorem card_write_empty : ¬ ∀ (xs : List Nat) (s : CardFs) (buf : Nat → BitVec 8) (len offset now : Nat) (writes : CardWrites),
    CardKept xs s → s.accepts len offset → writes.Succeed → len < 2 ^ 32 → offset < 2 ^ 32 →
      CardWritten xs s (cardWrite s buf len offset now writes).1 (cardWrite s buf len offset now writes).2 buf len offset := by
  intro h
  have hacc : cardFs0.accepts 0 0 := by decide
  have hw := h [5, 7] cardFs0 (fun _ => 1) 0 0 0 cardWrites0 cardFs0_opened.kept hacc cardWrites0_succeed (by decide) (by decide)
  obtain ⟨b, -, hsame⟩ := (cardFs0_opened.kept.write_none hacc cardWrites0_succeed (by decide)).1 hw
  exact absurd (hsame 0 (by decide)) (by decide : ¬ (0 : BitVec 8) = 1)

end Libogc
