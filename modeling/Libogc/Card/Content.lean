import Libogc.Card.Written
/-!
# Content — what a read puts in the buffer

A read is a transfer for each sector that it touches, and a transfer a number of segments of 512 bytes.  The first transfer has the length
that is left of its sector, but the address of the sector's start (`card_read`).
-/
namespace Libogc

/-- `__card_read` and `__blockreadcallback`: segments of 512 bytes, to `usr` on.  The first one is read whatever their number. -/
def cardBlockread (m : Flash.Mem) : Nat → Nat → Nat → Flash.Mem → Flash.Mem
  | 0, addr, usr, buf | 1, addr, usr, buf => Flash.store buf usr CARD_READSIZE fun i => m (cardAddr addr + i)
  | n + 2, addr, usr, buf =>
    cardBlockread m (n + 1) (addr + CARD_READSIZE) (usr + CARD_READSIZE) (Flash.store buf usr CARD_READSIZE fun i => m (cardAddr addr + i))

/-- The transfers of a read; each goes on in the buffer where the one before ended. -/
def cardTransfers (m : Flash.Mem) : List (Nat × Nat) → Nat → Flash.Mem → Flash.Mem
  | [], _, buf => buf
  | (addr, len) :: ts, usr, buf =>
    cardTransfers m ts (usr + CARD_READSIZE * max 1 (len >>> 9)) (cardBlockread m (len >>> 9) addr usr buf)

/-- What `CARD_Read` leaves of a buffer. -/
def CardFs.readBuffer (s : CardFs) (buf : Flash.Mem) (len offset : Nat) (reads : CardReads) : Flash.Mem :=
  cardTransfers s.flash (cardRead s.card s.file len offset reads).2.2 0 buf

/-- No step fails. -/
structure CardReads.Succeed (reads : CardReads) : Prop where
  start : ∀ i, 0 ≤ reads.start i
  result : ∀ i, 0 ≤ reads.result i

/-- **What a read has to do**: the buffer gets the bytes of the range, and nothing behind them. -/
structure CardContent (xs : List Nat) (s : CardFs) (len offset : Nat) (buf buf' : Flash.Mem) : Prop where
  bytes : ∀ j < len, ∃ b, xs[(offset + j) / s.card.sector_size]? = some b ∧
    buf' j = s.flash (b * s.card.sector_size + (offset + j) % s.card.sector_size)
  others : ∀ j, len ≤ j → buf' j = buf j

/-! ## Transfers -/

theorem cardBlockread_eq (m : Flash.Mem) (n : Nat) : ∀ {addr usr : Nat} {buf : Flash.Mem}, addr + CARD_READSIZE * (n + 1) ≤ 2 ^ 24 →
    cardBlockread m (n + 1) addr usr buf = Flash.store buf usr (CARD_READSIZE * (n + 1)) fun i => m (addr + i) := by
  have hpos : 0 < CARD_READSIZE := by decide
  induction n with
  | zero =>
    intro addr usr buf h
    rw [Nat.zero_add, Nat.mul_one] at h
    have haddr : cardAddr addr = addr := Nat.mod_eq_of_lt (by omega)
    unfold cardBlockread
    rw [haddr, Nat.zero_add, Nat.mul_one]
  | succ n ih =>
    intro addr usr buf h
    rw [Nat.mul_succ] at h
    have haddr : cardAddr addr = addr := Nat.mod_eq_of_lt (by omega)
    have hrest := @ih (addr + CARD_READSIZE) (usr + CARD_READSIZE) (Flash.store buf usr CARD_READSIZE fun i => m (addr + i)) (by omega)
    unfold cardBlockread
    rw [haddr]
    refine hrest.trans ?_
    have happend := @Flash.store_append buf usr CARD_READSIZE (CARD_READSIZE * (n + 1)) fun i => m (addr + i)
    rw [Nat.add_comm CARD_READSIZE, ← Nat.mul_succ] at happend
    rw [← happend]
    simp only [Nat.add_assoc]

theorem cardBlockread_store (m : Flash.Mem) {len addr usr : Nat} {buf : Flash.Mem} (hpos : 0 < len) (hlen : len % CARD_READSIZE = 0)
    (hend : addr + len ≤ 2 ^ 24) : cardBlockread m (len >>> 9) addr usr buf = Flash.store buf usr len (fun i => m (addr + i)) ∧
      CARD_READSIZE * max 1 (len >>> 9) = len := by
  obtain ⟨c, rfl⟩ := Nat.dvd_of_mod_eq_zero hlen
  obtain ⟨n, rfl⟩ := Nat.exists_eq_add_one_of_ne_zero (Nat.ne_of_gt (Nat.pos_of_mul_pos_left hpos))
  have hshift : (CARD_READSIZE * (n + 1)) >>> 9 = n + 1 := by
    rw [Nat.shiftRight_eq_div_pow]
    exact Nat.mul_div_cancel_left _ (by decide)
  rw [hshift, Nat.max_eq_right (Nat.le_add_left 1 n), cardBlockread_eq m n hend]
  exact ⟨rfl, rfl⟩

section Read
variable {s : CardFs} {xs : List Nat}

/-- The bytes of a file, one behind the other. -/
def CardFs.byte (s : CardFs) (xs : List Nat) (j : Nat) : BitVec 8 :=
  s.flash (xs.getD (j / s.card.sector_size) 0 * s.card.sector_size + j % s.card.sector_size)

theorem CardFs.byte_of {j b : Nat} (hb : xs[j / s.card.sector_size]? = some b) :
    s.byte xs j = s.flash (b * s.card.sector_size + j % s.card.sector_size) := by
  unfold byte
  rw [List.getD_eq_getElem?_getD, hb, Option.getD_some]

theorem CardFiled.content_iff {filenum : Int} (h : CardFiled s.card filenum xs) {len offset : Nat} {buf buf' : Flash.Mem}
    (hle : offset + len ≤ xs.length * s.card.sector_size) :
    CardContent xs s len offset buf buf' ↔ (∀ j < len, buf' j = s.byte xs (offset + j)) ∧ ∀ j, len ≤ j → buf' j = buf j := by
  have hget : ∀ j < len, ∃ b, xs[(offset + j) / s.card.sector_size]? = some b := fun j hj =>
    ⟨_, List.getElem?_eq_getElem ((Nat.div_lt_iff_lt_mul h.mounted.pos).2 (by omega))⟩
  constructor
  · rintro ⟨hbytes, hothers⟩
    refine ⟨fun j hj => ?_, hothers⟩
    obtain ⟨b, hb, he⟩ := hbytes j hj
    rw [he, CardFs.byte_of hb]
  · rintro ⟨hbytes, hothers⟩
    refine ⟨fun j hj => ?_, hothers⟩
    obtain ⟨b, hb⟩ := hget j hj
    exact ⟨b, hb, by rw [hbytes j hj, CardFs.byte_of hb]⟩

theorem CardFiled.sector_end {filenum : Int} (h : CardFiled s.card filenum xs) {i b : Nat} (hi : xs[i]? = some b) :
    b * s.card.sector_size + s.card.sector_size ≤ 2 ^ 24 := by
  have hin := h.outside_not hi
  unfold CardBlock.outside at hin
  have := Nat.mul_le_mul_right s.card.sector_size (by omega : b + 1 ≤ s.card.blocks)
  rw [Nat.succ_mul] at this
  exact Nat.le_trans this h.mounted.size

theorem CardMounted.segments (h : CardMounted s.card) : s.card.sector_size % CARD_READSIZE = 0 := by
  obtain ⟨k, hk, -, hsector⟩ := h.sector
  rw [hsector]
  exact Nat.mod_eq_zero_of_dvd (Nat.pow_dvd_pow 2 (by omega : 9 ≤ k))

theorem CardFiled.byte_sector {filenum : Int} (h : CardFiled s.card filenum xs) {i j b : Nat} (hi : xs[i]? = some b)
    (hj : j < s.card.sector_size) : s.byte xs (i * s.card.sector_size + j) = s.flash (b * s.card.sector_size + j) := by
  have hdiv : (i * s.card.sector_size + j) / s.card.sector_size = i := by
    rw [Nat.add_comm, Nat.add_mul_div_right _ _ h.mounted.pos, Nat.div_eq_of_lt hj, Nat.zero_add]
  have hmod : (i * s.card.sector_size + j) % s.card.sector_size = j := by
    rw [Nat.add_comm, Nat.add_mul_mod_self_right, Nat.mod_eq_of_lt hj]
  rw [CardFs.byte_of (by rw [hdiv]; exact hi), hmod]

theorem CardFiled.transfer {filenum : Int} (h : CardFiled s.card filenum xs) {i b t k usr : Nat} {buf : Flash.Mem} (hi : xs[i]? = some b)
    (hpos : 0 < t) (hseg : t % CARD_READSIZE = 0) (ht : t ≤ s.card.sector_size) (hk : 0 < k → t = s.card.sector_size) :
    Flash.store (cardBlockread s.flash (t >>> 9) (b * s.card.sector_size) usr buf) (usr + CARD_READSIZE * max 1 (t >>> 9)) k
        (fun j => s.byte xs ((i + 1) * s.card.sector_size + j)) =
      Flash.store buf usr (t + k) fun j => s.byte xs (i * s.card.sector_size + j) := by
  have hend := h.sector_end hi
  obtain ⟨hread, hlen⟩ := @cardBlockread_store s.flash t (b * s.card.sector_size) usr buf hpos hseg (by omega)
  have hfirst : ∀ j < t, s.flash (b * s.card.sector_size + j) = s.byte xs (i * s.card.sector_size + j) := fun j hj =>
    (h.byte_sector hi (by omega)).symm
  have hsecond : ∀ j < k, s.byte xs ((i + 1) * s.card.sector_size + j) = s.byte xs (i * s.card.sector_size + (t + j)) := fun j hj => by
    rw [hk (by omega), Nat.succ_mul, Nat.add_assoc]
  rw [hread, hlen, Flash.store_congr hfirst, Flash.store_congr hsecond]
  exact Flash.store_append

/-- **The transfers behind the first one** bring what the range has from the next sector on. -/
theorem CardFiled.readLoop_content {filenum : Int} (h : CardFiled s.card filenum xs) {reads : CardReads} (hs : reads.Succeed) :
    ∀ {n k o l usr : Nat} {file : CardFile} {buf : Flash.Mem}, file.offset = o → xs[o / s.card.sector_size]? = some file.iblock →
      file.len = l → o + l ≤ xs.length * s.card.sector_size → (o + l) % CARD_READSIZE = 0 → l < n →
        cardTransfers s.flash (cardReadLoop s.card reads n k file).2.2 usr buf =
          Flash.store buf usr (o + l - (o / s.card.sector_size + 1) * s.card.sector_size) fun j =>
            s.byte xs ((o / s.card.sector_size + 1) * s.card.sector_size + j) := by
  intro n
  induction n with
  | zero => exact fun _ _ _ _ _ hl => absurd hl (Nat.not_lt_zero _)
  | succ n ih =>
    intro k o l usr file buf hfile ho hlen hle hseg hl
    have hpos := h.mounted.pos
    have hss := h.mounted.le
    have hsize := h.size
    have hdiv := Nat.mul_div_cancel (o / s.card.sector_size + 1) hpos
    have hdm := Nat.div_add_mod' o s.card.sector_size
    have hmod := Nat.mod_lt o hpos
    have hsucc : (o / s.card.sector_size + 1) * s.card.sector_size = o / s.card.sector_size * s.card.sector_size + s.card.sector_size :=
      Nat.succ_mul ..
    have hnext := h.next ho
    rw [h.readLoop_step reads hfile ho, if_neg (Int.not_lt.2 (hs.result k)), if_neg (by omega)]
    generalize hN : (o / s.card.sector_size + 1) * s.card.sector_size = N at hdiv hsucc ⊢
    have hsucc' : (o / s.card.sector_size + 1 + 1) * s.card.sector_size = N + s.card.sector_size := by rw [Nat.succ_mul, hN]
    have hleft : s32 (file.len - ((N : Int) - o)) = (o + l : Int) - N := by
      rw [hlen, s32_of_range (by omega) (by omega)]
      omega
    dsimp only
    rw [hleft]
    by_cases hmore : N < o + l
    · obtain ⟨left, hl'⟩ : ∃ left : Nat, o + l = N + left := ⟨o + l - N, by omega⟩
      have hlint : (o + l : Int) - N = left := by omega
      have hin : ¬ s.card.outside (s.card.nextblock file) := fun hout => by
        have hlast := Nat.mul_le_mul_right s.card.sector_size (hnext.1.1 hout)
        rw [hN] at hlast
        omega
      have hiblock := hnext.2 hin
      rw [hlint, if_pos (by omega), if_neg hin, if_pos (hs.start _), hl', Nat.add_sub_cancel_left]
      have htake : (if uint32 (left : Int) < s.card.sector_size then uint32 (left : Int) else s.card.sector_size) = min left s.card.sector_size := by
        rw [uint32_natCast, Nat.mod_eq_of_lt (by omega)]
        split <;> omega
      have hNseg : N % CARD_READSIZE = 0 := by
        rw [← hN, Nat.mul_mod, h.mounted.segments, Nat.mul_zero, Nat.zero_mod]
      have hleftseg : left % CARD_READSIZE = 0 := by
        rw [hl', Nat.add_mod, hNseg, Nat.zero_add, Nat.mod_mod] at hseg
        exact hseg
      have hseg' : min left s.card.sector_size % CARD_READSIZE = 0 := by
        rcases Nat.le_total left s.card.sector_size with hcase | hcase
        · rw [Nat.min_eq_left hcase]
          exact hleftseg
        · rw [Nat.min_eq_right hcase]
          exact h.mounted.segments
      dsimp only
      rw [htake, cardTransfers, ih (o := N) (l := left) rfl (by rw [hdiv]; exact hiblock) rfl (by omega) (by rw [← hl']; exact hseg) (by omega)]
      rw [hdiv, hsucc']
      have htransfer := @CardFiled.transfer _ _ _ h _ _ _ (left - s.card.sector_size) usr buf hiblock (by omega) hseg' (Nat.min_le_right ..)
        (fun hk => by omega)
      rw [hN, hsucc'] at htransfer
      rw [show N + left - (N + s.card.sector_size) = left - s.card.sector_size by omega, htransfer]
      congr 1
      omega
    · rw [if_neg (by omega), Nat.sub_eq_zero_of_le (by omega), Flash.store_zero]
      rfl

variable {reads : CardReads} {len offset : Nat}

/-- **The buffer that a read leaves**: the first sector's part from the sector's start, and the rest of the range from its own place. -/
theorem CardKept.readBuffer_eq (h : CardKept xs s) (hs : reads.Succeed) (hpos : 0 < len) (hlen : len % CARD_READSIZE = 0)
    (hoff : offset % CARD_READSIZE = 0) (hle : offset + len ≤ xs.length * s.card.sector_size) (buf : Flash.Mem) :
    ∃ b, xs[offset / s.card.sector_size]? = some b ∧ s.readBuffer buf len offset reads =
      Flash.store (Flash.store buf 0 (min len (s.card.sector_size - offset % s.card.sector_size)) fun j => s.flash (b * s.card.sector_size + j))
        (min len (s.card.sector_size - offset % s.card.sector_size)) (offset + len - (offset / s.card.sector_size + 1) * s.card.sector_size)
        fun j => s.byte xs ((offset / s.card.sector_size + 1) * s.card.sector_size + j) := by
  have hss := h.1.mounted.pos
  have hsize := h.1.size
  have hmod := Nat.mod_lt offset hss
  have hargs : ¬ (len = 0 ∨ len &&& 0x1ff ≠ 0 ∨ (offset > 0 ∧ offset &&& 0x1ff ≠ 0)) := by
    rw [Nat.and_two_pow_sub_one_eq_mod len 9, Nat.and_two_pow_sub_one_eq_mod offset 9]
    unfold CARD_READSIZE at hlen hoff
    omega
  obtain ⟨-, hsought⟩ := (h.1.seek h.2 (by omega : offset < 2 ^ 32) len).resolve_left fun hno =>
    h.1.accepts (by omega) hle hno.1
  have hready := hsought.ready.2 ((Nat.div_lt_iff_lt_mul hss).2 (by omega))
  have hb := hsought.iblock hready
  have hoffset := hsought.offset_eq hready
  have hflen := hsought.len_eq
  unfold CardFs.readBuffer cardRead
  rw [if_neg hargs]
  generalize cardSeek s.card s.file (s32 len) (s32 offset) = r at hready hb hoffset hflen
  refine ⟨r.1.iblock, hb, ?_⟩
  have hrest : uint32 r.1.offset &&& (s.card.sector_size - 1) = offset % s.card.sector_size := by
    rw [hoffset, (h.1.advance hb).1, h.1.mounted.mask]
  have hmin : (if len ≥ s.card.sector_size - offset % s.card.sector_size then s.card.sector_size - offset % s.card.sector_size else len) =
      min len (s.card.sector_size - offset % s.card.sector_size) := by
    split <;> omega
  have hseg : min len (s.card.sector_size - offset % s.card.sector_size) % CARD_READSIZE = 0 := by
    have hsector := h.1.mounted.segments
    have hdiv : CARD_READSIZE ∣ offset % s.card.sector_size :=
      (Nat.dvd_mod_iff (Nat.dvd_of_mod_eq_zero hsector)).2 (Nat.dvd_of_mod_eq_zero hoff)
    rcases Nat.le_total len (s.card.sector_size - offset % s.card.sector_size) with hcase | hcase
    · rw [Nat.min_eq_left hcase]
      exact hlen
    · rw [Nat.min_eq_right hcase]
      exact Nat.mod_eq_zero_of_dvd (Nat.dvd_sub (Nat.dvd_of_mod_eq_zero hsector) hdiv)
  have hend := h.1.sector_end hb
  have hlen' : r.1.len = (len : Int) := by
    rw [hflen]
    exact s32_of_range (by omega) (by omega)
  dsimp only
  rw [hrest, hmin, if_neg (by rw [hready]; decide), if_neg (Int.not_lt.2 (hs.start 0))]
  have hfit : r.1.iblock * s.card.sector_size + min len (s.card.sector_size - offset % s.card.sector_size) ≤ 2 ^ 24 :=
    Nat.le_trans (Nat.add_le_add_left (Nat.le_trans (Nat.min_le_right ..) (Nat.sub_le ..)) _) hend
  obtain ⟨hread, hcount⟩ := @cardBlockread_store s.flash _ _ 0 buf (Nat.lt_min.2 ⟨hpos, Nat.sub_pos_of_lt hmod⟩) hseg hfit
  dsimp only
  rw [cardTransfers, hcount, hread, Nat.zero_add]
  refine h.1.readLoop_content hs hoffset hb hlen' hle ?_ ?_
  · rw [Nat.add_mod, hoff, hlen]
    exact Nat.zero_mod _
  · rw [hlen', Int.toNat_natCast]
    exact Nat.lt_succ_self len

/-- The range begins with a sector; or what is asked for of its first sector stands at the sector's start as well. -/
def cardReadExact (xs : List Nat) (s : CardFs) (len offset : Nat) : Prop :=
  offset % s.card.sector_size = 0 ∨ ∃ b, xs[offset / s.card.sector_size]? = some b ∧ ∀ j < len,
    offset % s.card.sector_size + j < s.card.sector_size →
      s.flash (b * s.card.sector_size + j) = s.flash (b * s.card.sector_size + (offset % s.card.sector_size + j))

/-- **A read** of which no step fails brings the bytes of the range exactly under this condition. -/
theorem card_read (h : CardKept xs s) (hs : reads.Succeed) (hpos : 0 < len) (hlen : len % CARD_READSIZE = 0)
    (hoff : offset % CARD_READSIZE = 0) (hle : offset + len ≤ xs.length * s.card.sector_size) (buf : Flash.Mem) :
    CardContent xs s len offset buf (s.readBuffer buf len offset reads) ↔ cardReadExact xs s len offset := by
  have hss := h.1.mounted.pos
  have hmod := Nat.mod_lt offset hss
  have hdm := Nat.div_add_mod' offset s.card.sector_size
  obtain ⟨b, hb, heq⟩ := h.readBuffer_eq hs hpos hlen hoff hle buf
  rw [h.1.content_iff hle, heq, Nat.succ_mul]
  generalize hfirst : min len (s.card.sector_size - offset % s.card.sector_size) = first
  generalize hrest : offset + len - (offset / s.card.sector_size * s.card.sector_size + s.card.sector_size) = rest
  generalize hbuf : Flash.store (Flash.store buf 0 first _) first rest _ = buf'
  have hsector : ∀ j < first, buf' j = s.flash (b * s.card.sector_size + j) ∧
      s.byte xs (offset + j) = s.flash (b * s.card.sector_size + (offset % s.card.sector_size + j)) := fun j hj => by
    constructor
    · rw [← hbuf, Flash.store_ne (.inl hj)]
      have hat := @Flash.store_at buf 0 first (fun j => s.flash (b * s.card.sector_size + j)) j hj
      rwa [Nat.zero_add] at hat
    · rw [← h.1.byte_sector hb (by omega), ← Nat.add_assoc, hdm]
  have hbehind : ∀ j, first ≤ j → j < len → buf' j = s.byte xs (offset + j) := fun j hj hlt => by
    obtain ⟨i, rfl⟩ : ∃ i, j = first + i := ⟨j - first, by omega⟩
    rw [← hbuf, Flash.store_at (by omega)]
    congr 1
    omega
  have hbeyond : ∀ j, len ≤ j → buf' j = buf j := fun j hj => by
    rw [← hbuf, Flash.store_ne (.inr (by omega)), Flash.store_ne (.inr (by omega))]
  unfold cardReadExact
  constructor
  · rintro ⟨hbytes, -⟩
    refine .inr ⟨b, hb, fun j hj hin => ?_⟩
    obtain ⟨hgot, hfile⟩ := hsector j (by omega)
    rw [← hgot, ← hfile]
    exact hbytes j hj
  · intro hex
    refine ⟨fun j hj => ?_, hbeyond⟩
    rcases Nat.lt_or_ge j first with hlt | hge
    · obtain ⟨hgot, hfile⟩ := hsector j hlt
      rw [hgot, hfile]
      rcases hex with h0 | ⟨b', hb', hsame⟩
      · rw [h0, Nat.zero_add]
      · obtain rfl : b = b' := Option.some.inj (hb.symm.trans hb')
        exact hsame j hj (by omega)
    · exact hbehind j hge hj

end Read

/-- All steps of a read succeed. -/
def cardReads0 : CardReads := ⟨fun _ => 0, fun _ => 0⟩

theorem cardReads0_succeed : cardReads0.Succeed := ⟨fun _ => Int.le_refl 0, fun _ => Int.le_refl 0⟩

/-- A read from the middle of the first sector into the second. -/
theorem card_read_two : CardContent [5, 7] cardFs0 0x400 0x1e00 (fun _ => 1) (cardFs0.readBuffer (fun _ => 1) 0x400 0x1e00 cardReads0) ↔
    cardReadExact [5, 7] cardFs0 0x400 0x1e00 :=
  card_read cardFs0_opened.kept cardReads0_succeed (by decide) (by decide) (by decide) (by decide) _

/-- The second segment of a file whose first byte is a one. -/
theorem card_read_inside : ¬ ∀ (xs : List Nat) (s : CardFs) (len offset : Nat) (reads : CardReads) (buf : Flash.Mem), CardKept xs s →
    reads.Succeed → 0 < len → len % CARD_READSIZE = 0 → offset % CARD_READSIZE = 0 → offset + len ≤ xs.length * s.card.sector_size →
      CardContent xs s len offset buf (s.readBuffer buf len offset reads) := by
  intro h
  have hkept : CardKept [5, 7] { cardFs0 with flash := fun a => if a = 40960 then 1 else 0 } := cardFs0_opened.kept
  have hc := h _ _ 0x200 0x200 cardReads0 (fun _ => 0) hkept cardReads0_succeed (by decide) (by decide) (by decide) (by decide)
  obtain ⟨b, hb, heq⟩ := @CardKept.readBuffer_eq _ _ cardReads0 0x200 0x200 hkept cardReads0_succeed (by decide) (by decide) (by decide) (by decide)
    fun _ => 0
  obtain rfl : 5 = b := Option.some.inj hb
  obtain ⟨b, hb', hbyte⟩ := hc.bytes 0 (by decide)
  obtain rfl : 5 = b := Option.some.inj hb'
  rw [heq] at hbyte
  revert hbyte
  decide

end Libogc
