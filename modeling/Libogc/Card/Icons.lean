import Libogc.Card.Card
import Libogc.Lib.Regions
/-!
# Icons — where the banner and the icons of a file are

`__card_updateiconoffsets` lays the banner and the icons of a file out from `iconaddr` on.  The palette that icons share is placed behind
as many icons of 1024 bytes as there are icons of any format (`card_icons_apart`).
-/
namespace Libogc

open Regions

def CARD_BANNER_CI : Nat := 0x01
def CARD_BANNER_RGB : Nat := 0x02
def CARD_BANNER_MASK : Nat := 0x03
def CARD_ICON_MASK : Nat := 0x03
def CARD_SPEED_MASK : Nat := 0x03

/-- An offset, or an address, that there is not. -/
def cardNowhere : Nat := 0xffffffff

/-- What `__card_updateiconoffsets` sets of a `card_stat`. -/
structure CardStat where
  banner_fmt : Nat
  icon_fmt : Nat
  icon_speed : Nat
  iconfmt : List Nat
  iconspeed : List Nat
  offset_banner : Nat
  offset_banner_tlut : Nat
  offset_icon : List Nat
  offset_icon_tlut : List Nat
  deriving DecidableEq, Repr

/-- The banner, and the address behind it. -/
def cardBanneroffsets (entry : CardDirentry) (stats : CardStat) (iconaddr : Nat) : CardStat × Nat :=
  let bnrfmt := entry.bannerfmt &&& CARD_BANNER_MASK
  if bnrfmt ≠ 0 then
    if entry.bannerfmt &&& 0x10 = 0 then
      if bnrfmt = CARD_BANNER_CI then
        ({ stats with banner_fmt := bnrfmt, offset_banner := iconaddr, offset_banner_tlut := (iconaddr + 3072) % 2 ^ 32 },
          (iconaddr + (3072 + 512)) % 2 ^ 32)
      else if bnrfmt = CARD_BANNER_RGB then
        ({ stats with banner_fmt := bnrfmt, offset_banner := iconaddr, offset_banner_tlut := cardNowhere }, (iconaddr + 6144) % 2 ^ 32)
      else (stats, iconaddr)
    else ({ stats with offset_banner := cardNowhere, offset_banner_tlut := cardNowhere }, iconaddr)
  else (stats, iconaddr)

/-- The offsets of the icons and of their palettes, from an icon on. -/
def cardIconoffsets (iconbase nicons : Nat) : Nat → List Nat → List (Nat × Nat)
  | _, [] => []
  | iconaddr, fmt :: fmts =>
    match fmt with
    | 1 => (iconaddr, (iconbase + nicons * 1024) % 2 ^ 32) :: cardIconoffsets iconbase nicons ((iconaddr + 1024) % 2 ^ 32) fmts
    | 2 => (iconaddr, cardNowhere) :: cardIconoffsets iconbase nicons ((iconaddr + 3072) % 2 ^ 32) fmts
    | 3 => (iconaddr, (iconaddr + 1024) % 2 ^ 32) :: cardIconoffsets iconbase nicons ((iconaddr + 1536) % 2 ^ 32) fmts
    | _ => (cardNowhere, cardNowhere) :: cardIconoffsets iconbase nicons iconaddr fmts

def cardIconspeeds (entry : CardDirentry) : List Nat :=
  (List.range CARD_MAXICONS).map fun i => (entry.iconspeed >>> (i <<< 1)) &&& CARD_SPEED_MASK

/-- The formats of the icons; one without a speed is not shown. -/
def cardIconfmts (entry : CardDirentry) : List Nat :=
  (List.range CARD_MAXICONS).map fun i =>
    if (entry.iconspeed >>> (i <<< 1)) &&& CARD_SPEED_MASK = 0 then 0 else (entry.iconfmt >>> (i <<< 1)) &&& CARD_ICON_MASK

/-- `__card_updateiconoffsets` -/
def cardUpdateiconoffsets (entry : CardDirentry) (stats : CardStat) : CardStat :=
  let nowhere := entry.iconaddr = cardNowhere
  let stats := if nowhere then { stats with banner_fmt := 0, icon_fmt := 0, icon_speed := 0 } else stats
  let r := cardBanneroffsets entry stats (if nowhere then 0 else entry.iconaddr)
  let iconfmt := cardIconfmts entry
  let nicons := iconfmt.countP (· ≠ 0)
  let offsets := cardIconoffsets r.2 nicons r.2 iconfmt
  { r.1 with
    iconfmt := iconfmt
    iconspeed := cardIconspeeds entry
    offset_icon := offsets.map Prod.fst
    offset_icon_tlut := offsets.map Prod.snd }

/-! ## The regions -/

/-- The regions of the banner. -/
def cardBannerRegions (entry : CardDirentry) (stats : CardStat) : List Region :=
  let bnrfmt := entry.bannerfmt &&& CARD_BANNER_MASK
  if entry.bannerfmt &&& 0x10 = 0 then
    if bnrfmt = CARD_BANNER_CI then [⟨stats.offset_banner, 3072⟩, ⟨stats.offset_banner_tlut, 512⟩]
    else if bnrfmt = CARD_BANNER_RGB then [⟨stats.offset_banner, 6144⟩]
    else []
  else []

/-- The regions of an icon but for a palette that is shared. -/
def cardIconRegion (fmt offset tlut : Nat) : List Region :=
  match fmt with
  | 1 => [⟨offset, 1024⟩]
  | 2 => [⟨offset, 3072⟩]
  | 3 => [⟨offset, 1024⟩, ⟨tlut, 512⟩]
  | _ => []

def cardIconRegions (fmts : List Nat) (offsets : List (Nat × Nat)) : List Region :=
  (fmts.zip offsets).flatMap fun x => cardIconRegion x.1 x.2.1 x.2.2

/-- The palettes that the icons with a shared one report. -/
def cardSharedTluts (stats : CardStat) : List Nat :=
  ((stats.iconfmt.zip stats.offset_icon_tlut).filter fun x => x.1 = 1).map Prod.snd

/-- All regions of a file, the shared palette once. -/
def cardRegions (entry : CardDirentry) (stats : CardStat) : List Region :=
  cardBannerRegions entry stats ++ cardIconRegions stats.iconfmt (stats.offset_icon.zip stats.offset_icon_tlut) ++
    ((cardSharedTluts stats).take 1).map fun tlut => ⟨tlut, 512⟩

/-- **A layout of banner and icons**: one shared palette at most, and no two regions that meet. -/
structure CardIconsApart (entry : CardDirentry) (stats : CardStat) : Prop where
  shared : ∀ tlut ∈ cardSharedTluts stats, ∀ tlut' ∈ cardSharedTluts stats, tlut = tlut'
  apart : (cardRegions entry stats).Pairwise (Region.Apart (2 ^ 32))

/-- Icons with the shared palette are shown, and others. -/
def cardIconsMixed (entry : CardDirentry) : Prop := 1 ∈ cardIconfmts entry ∧ (2 ∈ cardIconfmts entry ∨ 3 ∈ cardIconfmts entry)

instance (entry : CardDirentry) : Decidable (cardIconsMixed entry) := inferInstanceAs (Decidable (_ ∧ _))

/-! ## Sizes -/

def cardBannerSizes (entry : CardDirentry) : List Nat :=
  let bnrfmt := entry.bannerfmt &&& CARD_BANNER_MASK
  if entry.bannerfmt &&& 0x10 = 0 then
    if bnrfmt = CARD_BANNER_CI then [3072, 512] else if bnrfmt = CARD_BANNER_RGB then [6144] else []
  else []

def cardIconSizes (fmt : Nat) : List Nat :=
  match fmt with
  | 1 => [1024]
  | 2 => [3072]
  | 3 => [1024, 512]
  | _ => []

section Sizes
variable {entry : CardDirentry} {stats : CardStat} {fmts : List Nat} {iconbase nicons : Nat}

theorem cardIconfmts_lt {fmt : Nat} (h : fmt ∈ cardIconfmts entry) : fmt < 4 := by
  obtain ⟨i, -, rfl⟩ := List.mem_map.1 h
  split
  · decide
  · exact Nat.lt_succ_of_le Nat.and_le_right

theorem cardBannerSizes_sum : (cardBannerSizes entry).sum ≤ 6144 := by
  unfold cardBannerSizes
  dsimp only
  split_ifs <;> decide

theorem cardIconSizes_sum (fmt : Nat) : (cardIconSizes fmt).sum ≤ 3072 := by
  unfold cardIconSizes
  split <;> decide

theorem cardIconSizes_total (fmts : List Nat) : (fmts.flatMap cardIconSizes).sum ≤ 3072 * fmts.length := by
  induction fmts with
  | nil => exact Nat.zero_le _
  | cons fmt fmts ih =>
    have hfmt := cardIconSizes_sum fmt
    rw [List.flatMap_cons, List.sum_append, List.length_cons]
    omega

theorem cardIconSizes_count (hlt : ∀ fmt ∈ fmts, fmt < 4) :
    fmts.countP (· ≠ 0) * 1024 ≤ (fmts.flatMap cardIconSizes).sum ∧
      (fmts.countP (· ≠ 0) * 1024 = (fmts.flatMap cardIconSizes).sum ↔ 2 ∉ fmts ∧ 3 ∉ fmts) := by
  have hmore : ∀ {count total size : Nat}, count * 1024 ≤ total → 1024 ≤ size → (count + 1) * 1024 ≤ size + total := by
    intro count total size
    omega
  have hless : ∀ {count total size : Nat}, count * 1024 ≤ total → 1024 < size → (count + 1) * 1024 ≠ size + total := by
    intro count total size
    omega
  have hsame : ∀ {count total : Nat}, (count + 1) * 1024 = 1024 + total ↔ count * 1024 = total := by
    intro count total
    omega
  induction fmts with
  | nil => exact ⟨Nat.le_refl _, iff_of_true rfl (by decide)⟩
  | cons fmt fmts ih =>
    obtain ⟨hle, heq⟩ := ih fun f hf => hlt f (List.mem_cons_of_mem _ hf)
    have hfmt := hlt fmt List.mem_cons_self
    rw [List.flatMap_cons, List.sum_append]
    simp only [List.mem_cons, not_or]
    have hsize : ∀ fmt < 4, (cardIconSizes fmt).sum = if fmt = 0 then 0 else if fmt = 1 then 1024 else if fmt = 2 then 3072 else 1536 := by
      decide
    rw [hsize fmt hfmt]
    have hcount : (fmt :: fmts).countP (· ≠ 0) = fmts.countP (· ≠ 0) + if fmt = 0 then 0 else 1 := by
      rw [List.countP_cons]
      by_cases h : fmt = 0 <;> simp [h]
    rw [hcount]
    generalize fmts.countP (· ≠ 0) = count at hle heq ⊢
    generalize (fmts.flatMap cardIconSizes).sum = total at hle heq ⊢
    clear hcount hsize
    obtain rfl | rfl | rfl | rfl : fmt = 0 ∨ fmt = 1 ∨ fmt = 2 ∨ fmt = 3 := by omega
    · simpa using ⟨hle, heq⟩
    · rw [if_neg (by decide), if_neg (by decide), if_pos rfl]
      exact ⟨hmore hle (Nat.le_refl _), hsame.trans (heq.trans (by simp))⟩
    · rw [if_neg (by decide), if_neg (by decide), if_neg (by decide), if_pos rfl]
      exact ⟨hmore hle (by decide), iff_of_false (hless hle (by decide)) fun h => h.1.1 rfl⟩
    · rw [if_neg (by decide), if_neg (by decide), if_neg (by decide), if_neg (by decide)]
      exact ⟨hmore hle (by decide), iff_of_false (hless hle (by decide)) fun h => h.2.1 rfl⟩

theorem cardIconRegions_layout {iconaddr : Nat} :
    cardIconRegions fmts (cardIconoffsets iconbase nicons iconaddr fmts) = layout (2 ^ 32) iconaddr (fmts.flatMap cardIconSizes) := by
  induction fmts generalizing iconaddr with
  | nil => rfl
  | cons fmt fmts ih =>
    unfold cardIconRegions at ih ⊢
    unfold cardIconoffsets
    rw [List.flatMap_cons]
    split
    · rw [List.zip_cons_cons, List.flatMap_cons, ih]
      rfl
    · rw [List.zip_cons_cons, List.flatMap_cons, ih]
      rfl
    · rw [List.zip_cons_cons, List.flatMap_cons, ih]
      show _ = ⟨iconaddr, 1024⟩ :: ⟨(iconaddr + 1024) % 2 ^ 32, 512⟩ :: layout (2 ^ 32) (((iconaddr + 1024) % 2 ^ 32 + 512) % 2 ^ 32) _
      rw [Nat.mod_add_mod]
      rfl
    case h_4 h1 h2 h3 =>
      rw [List.zip_cons_cons, List.flatMap_cons, ih]
      unfold cardIconRegion cardIconSizes
      split
      · exact (h1 (by assumption)).elim
      · exact (h2 (by assumption)).elim
      · exact (h3 (by assumption)).elim
      · rfl

theorem cardSharedTluts_eq {iconaddr : Nat} :
    ((fmts.zip ((cardIconoffsets iconbase nicons iconaddr fmts).map Prod.snd)).filter fun x => x.1 = 1).map Prod.snd =
      List.replicate (fmts.count 1) ((iconbase + nicons * 1024) % 2 ^ 32) := by
  induction fmts generalizing iconaddr with
  | nil => rfl
  | cons fmt fmts ih =>
    have hother : fmt ≠ 1 → ∀ (x : Nat × Nat) (xs : List (Nat × Nat)),
        (((fmt :: fmts).zip ((x :: xs).map Prod.snd)).filter fun x => x.1 = 1).map Prod.snd =
          ((fmts.zip (xs.map Prod.snd)).filter fun x => x.1 = 1).map Prod.snd := by
      intro hne x xs
      rw [List.map_cons, List.zip_cons_cons, List.filter_cons_of_neg (by simpa using hne)]
    unfold cardIconoffsets
    split
    · rw [List.map_cons, List.zip_cons_cons, List.filter_cons_of_pos (by simp), List.map_cons, ih, List.count_cons_self]
      rfl
    · rw [hother (by decide), ih, List.count_cons_of_ne (by decide)]
    · rw [hother (by decide), ih, List.count_cons_of_ne (by decide)]
    case h_4 h1 h2 h3 =>
      have hne : fmt ≠ 1 := fun h => h1 h
      rw [hother hne, ih, List.count_cons_of_ne hne]

theorem cardBannerRegions_layout {iconaddr : Nat} (ha : iconaddr < 2 ^ 32) :
    cardBannerRegions entry (cardBanneroffsets entry stats iconaddr).1 = layout (2 ^ 32) iconaddr (cardBannerSizes entry) ∧
      (cardBanneroffsets entry stats iconaddr).2 = (iconaddr + (cardBannerSizes entry).sum) % 2 ^ 32 := by
  have hnone : iconaddr = (iconaddr + 0) % 2 ^ 32 := (Nat.mod_eq_of_lt ha).symm
  unfold cardBannerRegions cardBanneroffsets cardBannerSizes
  dsimp only
  by_cases hbit : entry.bannerfmt &&& 0x10 = 0
  · rw [if_pos hbit, if_pos hbit, if_pos hbit]
    by_cases hci : entry.bannerfmt &&& CARD_BANNER_MASK = CARD_BANNER_CI
    · rw [if_pos hci, if_pos hci, if_pos hci, if_pos (by rw [hci]; decide)]
      exact ⟨rfl, rfl⟩
    · rw [if_neg hci, if_neg hci, if_neg hci]
      by_cases hrgb : entry.bannerfmt &&& CARD_BANNER_MASK = CARD_BANNER_RGB
      · rw [if_pos hrgb, if_pos hrgb, if_pos hrgb, if_pos (by rw [hrgb]; decide)]
        exact ⟨rfl, rfl⟩
      · rw [if_neg hrgb, if_neg hrgb, if_neg hrgb, ite_self]
        exact ⟨rfl, hnone⟩
  · rw [if_neg hbit, if_neg hbit, if_neg hbit]
    split
    · exact ⟨rfl, hnone⟩
    · exact ⟨rfl, hnone⟩

end Sizes

/-! ## The layout -/

section Layout
variable (entry : CardDirentry) (stats : CardStat)

theorem cardRegions_eq (haddr : entry.iconaddr < 2 ^ 32) : ∃ iconaddr iconbase, iconaddr < 2 ^ 32 ∧
    iconbase = (iconaddr + (cardBannerSizes entry).sum) % 2 ^ 32 ∧
    cardSharedTluts (cardUpdateiconoffsets entry stats) =
      List.replicate ((cardIconfmts entry).count 1) ((iconbase + (cardIconfmts entry).countP (· ≠ 0) * 1024) % 2 ^ 32) ∧
    cardRegions entry (cardUpdateiconoffsets entry stats) = layout (2 ^ 32) iconaddr (cardBannerSizes entry) ++
      layout (2 ^ 32) iconbase ((cardIconfmts entry).flatMap cardIconSizes) ++
        ((cardSharedTluts (cardUpdateiconoffsets entry stats)).take 1).map fun tlut => ⟨tlut, 512⟩ := by
  have ha : (if entry.iconaddr = cardNowhere then 0 else entry.iconaddr) < 2 ^ 32 := by
    split
    · decide
    · exact haddr
  unfold cardUpdateiconoffsets
  dsimp only
  generalize (if entry.iconaddr = cardNowhere then { stats with banner_fmt := 0, icon_fmt := 0, icon_speed := 0 } else stats) = stats'
  generalize (if entry.iconaddr = cardNowhere then 0 else entry.iconaddr) = iconaddr at ha ⊢
  obtain ⟨hbanner, hbase⟩ := @cardBannerRegions_layout entry stats' iconaddr ha
  refine ⟨iconaddr, (cardBanneroffsets entry stats' iconaddr).2, ha, hbase, cardSharedTluts_eq, ?_⟩
  unfold cardRegions
  dsimp only
  rw [← List.zip_of_prod rfl rfl, cardIconRegions_layout, ← hbanner]
  rfl

theorem cardIconsMixed.meet (haddr : entry.iconaddr < 2 ^ 32) (hmixed : cardIconsMixed entry) :
    ¬ CardIconsApart entry (cardUpdateiconoffsets entry stats) := by
  intro h
  obtain ⟨hone, hother⟩ := hmixed
  obtain ⟨iconaddr, iconbase, -, -, hshared, hregions⟩ := cardRegions_eq entry stats haddr
  obtain ⟨hcount, hexact⟩ := @cardIconSizes_count (cardIconfmts entry) fun _ => cardIconfmts_lt
  generalize (cardIconfmts entry).countP (· ≠ 0) = nicons at hcount hexact hshared
  have hlt : nicons * 1024 < ((cardIconfmts entry).flatMap cardIconSizes).sum := by
    refine Nat.lt_of_le_of_ne hcount fun heq => ?_
    obtain ⟨htwo, hthree⟩ := hexact.1 heq
    exact hother.elim htwo hthree
  obtain ⟨r, hr, hhas⟩ := layout_covers (M := 2 ^ 32) (a := iconbase) hlt
  have htlut : (cardSharedTluts (cardUpdateiconoffsets entry stats)).take 1 = [(iconbase + nicons * 1024) % 2 ^ 32] := by
    rw [hshared, List.take_replicate, Nat.min_eq_left (List.count_pos_iff.2 hone)]
    rfl
  have hapart := h.apart
  rw [hregions, htlut] at hapart
  refine (List.pairwise_append.1 hapart).2.2 r (List.mem_append_right _ hr) _ (List.mem_singleton.2 rfl) _ hhas ⟨0, Nat.succ_pos 511, ?_⟩
  rw [Nat.add_zero, Nat.mod_mod]

/-- Icons of one kind lie one behind the other, and their palette behind them. -/
theorem cardIconsApart_of (haddr : entry.iconaddr < 2 ^ 32) (hmixed : ¬ cardIconsMixed entry) :
    CardIconsApart entry (cardUpdateiconoffsets entry stats) := by
  obtain ⟨iconaddr, iconbase, ha, hbase, hshared, hregions⟩ := cardRegions_eq entry stats haddr
  obtain ⟨hcount, hexact⟩ := @cardIconSizes_count (cardIconfmts entry) fun _ => cardIconfmts_lt
  generalize (cardIconfmts entry).countP (· ≠ 0) = nicons at hcount hexact hshared
  have hbound : (cardBannerSizes entry).sum + ((cardIconfmts entry).flatMap cardIconSizes).sum + 512 ≤ 2 ^ 32 := by
    have hb := @cardBannerSizes_sum entry
    have hi := cardIconSizes_total (cardIconfmts entry)
    have hlen : (cardIconfmts entry).length = 8 := rfl
    omega
  refine ⟨fun tlut ht tlut' ht' => ?_, ?_⟩
  · rw [hshared] at ht ht'
    rw [(List.mem_replicate.1 ht).2, (List.mem_replicate.1 ht').2]
  · rw [hregions, hbase, ← layout_append ha, hshared]
    by_cases hone : 1 ∈ cardIconfmts entry
    · have hall : 2 ∉ cardIconfmts entry ∧ 3 ∉ cardIconfmts entry :=
        ⟨fun h => hmixed ⟨hone, .inl h⟩, fun h => hmixed ⟨hone, .inr h⟩⟩
      have hend : (iconbase + nicons * 1024) % 2 ^ 32 =
          (iconaddr + (cardBannerSizes entry ++ (cardIconfmts entry).flatMap cardIconSizes).sum) % 2 ^ 32 := by
        rw [hexact.2 hall, hbase, Nat.mod_add_mod, Nat.add_assoc, List.sum_append]
      rw [List.take_replicate, Nat.min_eq_left (List.count_pos_iff.2 hone), hend]
      have hlayout : layout (2 ^ 32) iconaddr (cardBannerSizes entry ++ (cardIconfmts entry).flatMap cardIconSizes ++ [512]) = _ := layout_append ha
      refine hlayout ▸ layout_apart ?_
      rw [List.sum_append, List.sum_append]
      exact hbound
    · rw [List.count_eq_zero_of_not_mem hone, List.replicate_zero, List.take_nil, List.map_nil, List.append_nil]
      refine layout_apart ?_
      rw [List.sum_append]
      omega

/-- **Banner and icons are apart** exactly if no icon with the shared palette is shown beside one of another format. -/
theorem card_icons_apart (haddr : entry.iconaddr < 2 ^ 32) :
    CardIconsApart entry (cardUpdateiconoffsets entry stats) ↔ ¬ cardIconsMixed entry :=
  ⟨fun h hmixed => hmixed.meet entry stats haddr h, cardIconsApart_of entry stats haddr⟩

end Layout

/-- An entry with a banner in colours and these icons. -/
def cardIcons0 (iconfmt iconspeed : Nat) : CardDirentry where
  gamecode := fun _ => 0
  company := fun _ => 0
  pad_00 := 0xff
  bannerfmt := CARD_BANNER_CI
  filename := fun _ => 0
  lastmodified := 0
  iconaddr := 0
  iconfmt := iconfmt
  iconspeed := iconspeed
  permission := 4
  copytimes := 0
  block := 5
  length := 1
  pad_01 := 0xffff
  commentaddr := 0

def cardStat0 : CardStat := ⟨0, 0, 0, [], [], 0, 0, [], []⟩

/-- Two icons with the shared palette. -/
theorem card_icons_apart_two :
    CardIconsApart (cardIcons0 5 5) (cardUpdateiconoffsets (cardIcons0 5 5) cardStat0) ↔ ¬ cardIconsMixed (cardIcons0 5 5) :=
  card_icons_apart (cardIcons0 5 5) cardStat0 (by decide)

/-- An icon with the shared palette and one in RGB: the palette is reported 2048 bytes behind the start of the icons, inside the second. -/
theorem card_icons_meet :
    ¬ ∀ (entry : CardDirentry) (stats : CardStat), entry.iconaddr < 2 ^ 32 → entry.iconaddr ≠ cardNowhere →
      CardIconsApart entry (cardUpdateiconoffsets entry stats) := by
  intro h
  have hmixed : cardIconsMixed (cardIcons0 9 5) := by decide
  exact hmixed.meet (cardIcons0 9 5) cardStat0 (by decide) (h (cardIcons0 9 5) cardStat0 (by decide) (by decide))

end Libogc
