import Libogc.Lib.Places
/-!
# Tpl — opening a texture file

`TPL_OpenTPLFromHandle` reads the table of the textures, and the headers each entry points to into blocks of their own.  Its two variables
for a header hold the offset from the table until the block is there.  What the headers hold, and the handle, which is closed after an
error, are left out.  A table whose size wraps is taken as the loop finds it.
-/
namespace Libogc

open Ledger

/-- `TPLDescHeader`: a texture's headers, by their offsets and then by their blocks. -/
structure TplDescHeader where
  imghead : Nat
  palhead : Nat
  deriving DecidableEq, Repr

/-- The variables of `TPL_OpenTPLFromHandle`; `failed` is the jump to `error_open`. -/
structure TplOpen where
  mem : CHeap
  deschead : Nat → TplDescHeader
  imghead : Nat
  palhead : Nat
  failed : Bool

/-- `TPLFile`, as far as it is set. -/
structure TplFile where
  ntextures : Nat
  texdesc : Nat
  descs : Nat → TplDescHeader

section Open
variable (p : Places)

/-- The image header of the texture `c`. -/
def tplImghead (c : Nat) (s : TplOpen) : TplOpen :=
  if s.imghead = 0 then s
  else
    let got := s.mem.malloc p
    if got.2 = 0 then { s with mem := got.1, imghead := 0, failed := true }
    else { s with mem := got.1, imghead := got.2, deschead := Function.update s.deschead c { s.deschead c with imghead := got.2 } }

/-- The palette header. -/
def tplPalhead (c : Nat) (s : TplOpen) : TplOpen :=
  if s.palhead = 0 then s
  else
    let got := s.mem.malloc p
    if got.2 = 0 then { s with mem := got.1, palhead := 0, failed := true }
    else { s with mem := got.1, palhead := got.2, deschead := Function.update s.deschead c { s.deschead c with palhead := got.2 } }

/-- The loop over `n` textures, from the texture `c` on. -/
def tplLoop : Nat → Nat → TplOpen → TplOpen
  | 0, _, s => s
  | n + 1, c, s =>
    let s := tplImghead p c { s with imghead := (s.deschead c).imghead, palhead := (s.deschead c).palhead }
    if s.failed then s
    else
      let s := tplPalhead p c s
      if s.failed then s else tplLoop n (c + 1) s

/-- `TPL_OpenTPLFromHandle`; `desc` is what stands in the table once it is read. -/
def tplOpenTPLFromHandle (handle : Bool) (ntextures : UInt32) (desc : Nat → TplDescHeader) (m : CHeap) : CHeap × Int × Option TplFile :=
  if !handle then (m, -1, none)
  else
    let got := m.malloc p
    if got.2 = 0 then (got.1, 0, none)
    else
      let s := tplLoop p ntextures.toNat 0 ⟨got.1, desc, 0, 0, false⟩
      if s.failed then (((s.mem.free got.2).free s.imghead).free s.palhead, 0, none)
      else (s.mem, 1, some ⟨ntextures.toNat, got.2, s.deschead⟩)

end Open

/-- **A failed open leaves nothing**: every block is freed once, and nothing else is. -/
def TplCleaned (m : CHeap) (opened : CHeap × Int × Option TplFile) : Prop :=
  opened.2.1 = 0 → ∃ es, opened.1.log = m.log ++ es ∧ Settled es

/-! ## Where an allocation fails -/

/-- The headers of a texture. -/
def TplDescHeader.images (d : TplDescHeader) : Nat := if d.imghead = 0 then 0 else 1
def TplDescHeader.palettes (d : TplDescHeader) : Nat := if d.palhead = 0 then 0 else 1

/-- The headers of the textures before `c`. -/
def tplBefore (desc : Nat → TplDescHeader) : Nat → Nat
  | 0 => 0
  | c + 1 => tplBefore desc c + (desc c).images + (desc c).palettes

/-- The allocation after the table and `k` headers is the first one that fails, when `t` were tried before them. -/
def TplFails (p : Places) (t k : Nat) : Prop := p.Serves t (1 + k) ∧ p.place (t + 1 + k) = none

/-- **Where a failure is cleaned up.**  Nobody frees the headers of the textures before.  The palette's offset is freed as a block when the
image header cannot be allocated, which is right by chance only. -/
def TplHarmless (p : Places) (t ntextures : Nat) (desc : Nat → TplDescHeader) : Prop :=
  ∀ c < ntextures,
    ((desc c).imghead ≠ 0 → TplFails p t (tplBefore desc c) →
      (tplBefore desc c = 0 ∧ (desc c).palhead = 0) ∨ (tplBefore desc c = 1 ∧ p.place (t + 1) = some (desc c).palhead)) ∧
    ((desc c).palhead ≠ 0 → TplFails p t (tplBefore desc c + (desc c).images) → tplBefore desc c = 0)

section Fails
variable {p : Places} {t : Nat} {desc : Nat → TplDescHeader}

theorem tplBefore_le (desc : Nat → TplDescHeader) {c c' : Nat} (h : c < c') : tplBefore desc c + (desc c).images + (desc c).palettes ≤ tplBefore desc c' := by
  induction c' with
  | zero => exact absurd h (Nat.not_lt_zero c)
  | succ c' ih =>
    rcases Nat.lt_or_eq_of_le (Nat.le_of_lt_succ h) with hlt | rfl
    · have := ih hlt
      rw [tplBefore]
      omega
    · exact Nat.le_refl _

variable {d : TplDescHeader}

theorem images_eq (h : d.imghead ≠ 0) : d.images = 1 := if_neg h

theorem palettes_eq (h : d.palhead ≠ 0) : d.palettes = 1 := if_neg h

theorem images_slot (h : d.imghead ≠ 0) : 0 < d.images + d.palettes := by
  rw [images_eq h]
  omega

theorem palettes_slot (h : d.palhead ≠ 0) : d.images < d.images + d.palettes := by
  rw [palettes_eq h]
  omega

theorem header_unique {c c' i i' : Nat} (hi : i < (desc c).images + (desc c).palettes) (hi' : i' < (desc c').images + (desc c').palettes)
    (h : tplBefore desc c + i = tplBefore desc c' + i') : c = c' ∧ i = i' := by
  rcases Nat.lt_trichotomy c c' with hlt | rfl | hlt
  · have := tplBefore_le desc hlt
    omega
  · exact ⟨rfl, Nat.add_left_cancel h⟩
  · have := tplBefore_le desc hlt
    omega

theorem TplFails.unique {k k' : Nat} (h : TplFails p t k) (h' : TplFails p t k') : k = k' := by
  have hle : ∀ {i j : Nat}, TplFails p t i → TplFails p t j → j ≤ i := by
    intro i j hi hj
    by_contra hlt
    have hsome := hj.1 (1 + i) (by omega)
    rw [← Nat.add_assoc, hi.2] at hsome
    cases hsome
  exact Nat.le_antisymm (hle h' h) (hle h h')

/-! ## What the loop holds -/

/-- The blocks of the first `k` headers. -/
def tplBlocks (p : Places) (t k : Nat) : List Nat := (List.range k).map fun i => (p.place (t + 1 + i)).getD 0

theorem tplBlocks_succ (k : Nat) : tplBlocks p t (k + 1) = tplBlocks p t k ++ [(p.place (t + 1 + k)).getD 0] := by
  unfold tplBlocks
  rw [List.range_succ, List.map_append, List.map_singleton]

theorem tplBlocks_nil {k : Nat} : tplBlocks p t k = [] ↔ k = 0 := by
  unfold tplBlocks
  rw [List.map_eq_nil_iff, List.range_eq_nil]

theorem tplBlocks_singleton {k a : Nat} (hs : p.Serves t (1 + k)) : tplBlocks p t k = [a] ↔ k = 1 ∧ p.place (t + 1) = some a := by
  constructor
  · intro h
    have hk : k = 1 := by
      have hlen := congrArg List.length h
      unfold tplBlocks at hlen
      rwa [List.length_map, List.length_range] at hlen
    subst hk
    obtain ⟨b, hb⟩ := Option.isSome_iff_exists.1 (hs 1 (by decide))
    have hval : (p.place (t + 1)).getD 0 = a := List.head_eq_of_cons_eq h
    rw [hb] at hval ⊢
    exact ⟨rfl, congrArg some hval⟩
  · rintro ⟨rfl, ha⟩
    show [(p.place (t + 1)).getD 0] = [a]
    rw [ha]
    rfl

end Fails

section Loop
variable {p : Places} {log₀ : List (Event Nat)} {t d : Nat} {desc : Nat → TplDescHeader}

/-- The heap with the table and `k` headers in hand. -/
structure TplHeld (p : Places) (log₀ : List (Event Nat)) (t d k : Nat) (m : CHeap) : Prop where
  tries : m.tries = t + 1 + k
  serves : p.Serves t (1 + k)
  owns : CHeap.Owns p log₀ m (d :: tplBlocks p t k)

variable {m : CHeap} {k : Nat} {s : TplOpen}

theorem TplHeld.malloc (h : TplHeld p log₀ t d k m) :
    ((m.malloc p).2 = 0 ∧ TplFails p t k ∧ CHeap.Owns p log₀ (m.malloc p).1 (d :: tplBlocks p t k)) ∨
      ((m.malloc p).2 ≠ 0 ∧ (m.malloc p).2 = (p.place (t + 1 + k)).getD 0 ∧ TplHeld p log₀ t d (k + 1) (m.malloc p).1) := by
  cases hp : p.place (t + 1 + k) with
  | none =>
    obtain ⟨hnull, -, howns⟩ := h.owns.malloc_none (h.tries ▸ hp)
    exact .inl ⟨hnull, ⟨h.serves, hp⟩, howns⟩
  | some a =>
    obtain ⟨ha, htries, howns⟩ := h.owns.malloc_some (h.tries ▸ hp)
    have hpos : a ≠ 0 := Nat.pos_iff_ne_zero.1 (p.pos _ a hp)
    refine .inr ⟨ha ▸ hpos, ha, htries.trans (congrArg (· + 1) h.tries), ?_, ?_⟩
    · rw [← Nat.add_assoc, Places.Serves.add]
      refine ⟨h.serves, fun i hi => ?_⟩
      obtain rfl : i = 0 := by omega
      rw [Nat.add_zero, ← Nat.add_assoc, hp]
      rfl
    · rw [tplBlocks_succ, hp]
      exact Owned.perm howns ((List.perm_append_singleton a (d :: tplBlocks p t k)).trans (List.Perm.refl _))

theorem TplHeld.not_fails {k' : Nat} (h : TplHeld p log₀ t d k m) (hk : k' < k) : ¬ TplFails p t k' := by
  rintro ⟨-, hnone⟩
  have hsome := h.serves (1 + k') (by omega)
  rw [← Nat.add_assoc, hnone] at hsome
  cases hsome

/-- The state before the texture `c`. -/
structure TplAt (p : Places) (log₀ : List (Event Nat)) (t d : Nat) (desc : Nat → TplDescHeader) (c : Nat) (s : TplOpen) : Prop where
  going : s.failed = false
  held : TplHeld p log₀ t d (tplBefore desc c) s.mem
  table : ∀ j, c ≤ j → s.deschead j = desc j

/-- The state after a failure at the texture `c`, in its image header or in its palette header. -/
def TplEnds (p : Places) (log₀ : List (Event Nat)) (t d : Nat) (desc : Nat → TplDescHeader) (c : Nat) (s : TplOpen) : Prop :=
  s.failed = true ∧
    (((desc c).imghead ≠ 0 ∧ TplFails p t (tplBefore desc c) ∧ s.imghead = 0 ∧ s.palhead = (desc c).palhead ∧
        CHeap.Owns p log₀ s.mem (d :: tplBlocks p t (tplBefore desc c))) ∨
      ((desc c).palhead ≠ 0 ∧ TplFails p t (tplBefore desc c + (desc c).images) ∧ s.palhead = 0 ∧
        s.imghead = (if (desc c).images = 0 then 0 else (p.place (t + 1 + tplBefore desc c)).getD 0) ∧
        CHeap.Owns p log₀ s.mem (d :: tplBlocks p t (tplBefore desc c + (desc c).images))))

theorem tplImghead_spec {c : Nat} (hgo : s.failed = false) (hheld : TplHeld p log₀ t d (tplBefore desc c) s.mem)
    (himg : s.imghead = (desc c).imghead) :
    ((tplImghead p c s).failed = true ∧ (desc c).imghead ≠ 0 ∧ TplFails p t (tplBefore desc c) ∧ (tplImghead p c s).imghead = 0 ∧
        (tplImghead p c s).palhead = s.palhead ∧ CHeap.Owns p log₀ (tplImghead p c s).mem (d :: tplBlocks p t (tplBefore desc c))) ∨
      ((tplImghead p c s).failed = false ∧ TplHeld p log₀ t d (tplBefore desc c + (desc c).images) (tplImghead p c s).mem ∧
        (tplImghead p c s).imghead = (if (desc c).images = 0 then 0 else (p.place (t + 1 + tplBefore desc c)).getD 0) ∧
        (tplImghead p c s).palhead = s.palhead ∧ ∀ j, j ≠ c → (tplImghead p c s).deschead j = s.deschead j) := by
  unfold tplImghead
  by_cases hz : s.imghead = 0
  · have himages : (desc c).images = 0 := if_pos (himg ▸ hz)
    rw [if_pos hz, himages]
    exact .inr ⟨hgo, hheld, hz, rfl, fun _ _ => rfl⟩
  · rw [if_neg hz]
    dsimp only
    have hne : (desc c).imghead ≠ 0 := himg ▸ hz
    rcases hheld.malloc with ⟨hnull, hfails, howns⟩ | ⟨hpos, ha, hmore⟩
    · rw [if_pos hnull]
      exact .inl ⟨rfl, hne, hfails, rfl, rfl, howns⟩
    · rw [if_neg hpos, images_eq hne]
      exact .inr ⟨hgo, hmore, ha, rfl, fun j hj => Function.update_of_ne hj ..⟩

theorem tplPalhead_spec {c : Nat} (hgo : s.failed = false) (hheld : TplHeld p log₀ t d k s.mem)
    (hpal : s.palhead = (desc c).palhead) :
    ((tplPalhead p c s).failed = true ∧ (desc c).palhead ≠ 0 ∧ TplFails p t k ∧ (tplPalhead p c s).palhead = 0 ∧
        (tplPalhead p c s).imghead = s.imghead ∧ CHeap.Owns p log₀ (tplPalhead p c s).mem (d :: tplBlocks p t k)) ∨
      ((tplPalhead p c s).failed = false ∧ TplHeld p log₀ t d (k + (desc c).palettes) (tplPalhead p c s).mem ∧
        ∀ j, j ≠ c → (tplPalhead p c s).deschead j = s.deschead j) := by
  unfold tplPalhead
  by_cases hz : s.palhead = 0
  · have hpalettes : (desc c).palettes = 0 := if_pos (hpal ▸ hz)
    rw [if_pos hz, hpalettes]
    exact .inr ⟨hgo, hheld, fun _ _ => rfl⟩
  · rw [if_neg hz]
    dsimp only
    have hne : (desc c).palhead ≠ 0 := hpal ▸ hz
    rcases hheld.malloc with ⟨hnull, hfails, howns⟩ | ⟨hpos, -, hmore⟩
    · rw [if_pos hnull]
      exact .inl ⟨rfl, hne, hfails, rfl, rfl, howns⟩
    · rw [if_neg hpos, palettes_eq hne]
      exact .inr ⟨hgo, hmore, fun j hj => Function.update_of_ne hj ..⟩

theorem tplLoop_spec {n c : Nat} (h : TplAt p log₀ t d desc c s) :
    TplAt p log₀ t d desc (c + n) (tplLoop p n c s) ∨ ∃ j, j < c + n ∧ TplEnds p log₀ t d desc j (tplLoop p n c s) := by
  induction n generalizing c s with
  | zero => exact .inl h
  | succ n ih =>
    rw [tplLoop]
    have hhere := h.table c (Nat.le_refl c)
    have hI := tplImghead_spec (s := { s with imghead := (s.deschead c).imghead, palhead := (s.deschead c).palhead }) h.going h.held
      (congrArg TplDescHeader.imghead hhere)
    generalize tplImghead p c { s with imghead := (s.deschead c).imghead, palhead := (s.deschead c).palhead } = s1 at hI
    dsimp only at hI ⊢
    rcases hI with ⟨hfailed, hne, hfails, himg, hpal, howns⟩ | ⟨hgo, hheld, himg, hpal, htable⟩
    · rw [if_pos hfailed]
      exact .inr ⟨c, by omega, hfailed, .inl ⟨hne, hfails, himg, hpal.trans (congrArg TplDescHeader.palhead hhere), howns⟩⟩
    · rw [if_neg (Bool.eq_false_iff.1 hgo)]
      have hP := tplPalhead_spec (s := s1) hgo hheld (hpal.trans (congrArg TplDescHeader.palhead hhere))
      generalize tplPalhead p c s1 = s2 at hP
      rcases hP with ⟨hfailed, hne, hfails, hpal2, himg2, howns⟩ | ⟨hgo2, hheld2, htable2⟩
      · rw [if_pos hfailed]
        exact .inr ⟨c, by omega, hfailed, .inr ⟨hne, hfails, hpal2, himg2.trans himg, howns⟩⟩
      · rw [if_neg (Bool.eq_false_iff.1 hgo2)]
        have hnext : TplAt p log₀ t d desc (c + 1) s2 := ⟨hgo2, hheld2, fun j hj => by
          rw [htable2 j (by omega), htable j (by omega)]
          exact h.table j (by omega)⟩
        rw [show c + (n + 1) = c + 1 + n by omega]
        exact ih hnext

theorem settled_imghead {pal : Nat} (hs : p.Serves t (1 + k)) (h : CHeap.Owns p log₀ m (d :: tplBlocks p t k)) :
    (∃ es, ((m.free d).free pal).log = log₀ ++ es ∧ Settled es) ↔ (k = 0 ∧ pal = 0) ∨ (k = 1 ∧ p.place (t + 1) = some pal) := by
  have howns := h.free
  by_cases hpal : pal = 0
  · subst hpal
    rw [CHeap.free_null, Owned.settled_iff howns, tplBlocks_nil]
    constructor
    · exact fun hk => .inl ⟨hk, rfl⟩
    · rintro (⟨hk, -⟩ | ⟨-, hnull⟩)
      · exact hk
      · exact absurd (p.pos _ _ hnull) (Nat.lt_irrefl 0)
  · rw [CHeap.free_log hpal, Owned.free_settled_iff howns, tplBlocks_singleton hs]
    exact ⟨.inr, fun hor => hor.resolve_left fun hk => hpal hk.2⟩

/-- What it leaves when the palette header failed, whose image header, if there is one, is the last block. -/
theorem settled_palhead {texture : TplDescHeader} (h : CHeap.Owns p log₀ m (d :: tplBlocks p t (k + texture.images))) :
    (∃ es, ((m.free d).free (if texture.images = 0 then 0 else (p.place (t + 1 + k)).getD 0)).log = log₀ ++ es ∧ Settled es) ↔ k = 0 := by
  have howns := h.free
  by_cases himg : texture.imghead = 0
  · have himages : texture.images = 0 := if_pos himg
    rw [himages, Nat.add_zero] at howns
    rw [if_pos himages, CHeap.free_null, Owned.settled_iff howns, tplBlocks_nil]
  · rw [images_eq himg, tplBlocks_succ] at howns
    rw [images_eq himg, if_neg Nat.one_ne_zero]
    have hlast : CHeap.Owns p log₀ (m.free d) ((p.place (t + 1 + k)).getD 0 :: tplBlocks p t k) :=
      Owned.perm howns (List.perm_append_singleton _ _).symm
    rw [Owned.settled_iff hlast.free, tplBlocks_nil]

/-- **The error path** is right just when the header that failed is in a harmless place. -/
theorem TplEnds.cleaned_iff {n j : Nat} (h : TplEnds p log₀ t d desc j s) (hj : j < n) :
    (∃ es, (((s.mem.free d).free s.imghead).free s.palhead).log = log₀ ++ es ∧ Settled es) ↔ TplHarmless p t n desc := by
  obtain ⟨-, ⟨himg, hfails, hnull, hpal, howns⟩ | ⟨hpal, hfails, hnull, himg, howns⟩⟩ := h
  · rw [hnull, hpal, CHeap.free_null, settled_imghead hfails.1 howns]
    constructor
    · intro hleft c _
      refine ⟨fun hcimg hc => ?_, fun hcpal hc => ?_⟩
      · obtain ⟨rfl, -⟩ := header_unique (images_slot hcimg) (images_slot himg) (hc.unique hfails)
        exact hleft
      · obtain ⟨rfl, hnone⟩ := header_unique (palettes_slot hcpal) (images_slot himg) (hc.unique hfails)
        rw [images_eq himg] at hnone
        cases hnone
    · exact fun hall => (hall j hj).1 himg hfails
  · rw [hnull, himg, CHeap.free_null, settled_palhead howns]
    constructor
    · intro hleft c _
      refine ⟨fun hcimg hc => ?_, fun hcpal hc => ?_⟩
      · obtain ⟨rfl, hnone⟩ := header_unique (images_slot hcimg) (palettes_slot hpal) (hc.unique hfails)
        rw [images_eq hcimg] at hnone
        cases hnone
      · obtain ⟨rfl, -⟩ := header_unique (palettes_slot hcpal) (palettes_slot hpal) (hc.unique hfails)
        exact hleft
    · exact fun hall => (hall j hj).2 hpal hfails

end Loop

theorem tplHeld_table {p : Places} {m : CHeap} {d : Nat} (hp : p.place m.tries = some d) :
    (m.malloc p).2 = d ∧ TplHeld p m.log m.tries d 0 (m.malloc p).1 := by
  obtain ⟨hd, htries, howns⟩ := CHeap.Owns.malloc_some (Owned.start id p m.tries m.log) hp
  refine ⟨hd, htries, fun i hi => ?_, howns⟩
  obtain rfl : i = 0 := by omega
  rw [Nat.add_zero, hp]
  rfl

/-- **Opening a texture** cleans up after a failed allocation just when nothing was read before the header that failed, or by chance. -/
theorem tpl_open_cleaned (p : Places) (handle : Bool) (ntextures : UInt32) (desc : Nat → TplDescHeader) (m : CHeap) :
    TplCleaned m (tplOpenTPLFromHandle p handle ntextures desc m) ↔ (handle → TplHarmless p m.tries ntextures.toNat desc) := by
  unfold tplOpenTPLFromHandle
  cases handle with
  | false =>
    constructor
    · intro _ h
      cases h
    · intro _ (h : (-1 : Int) = 0)
      cases h
  | true =>
    rw [if_neg (by decide)]
    dsimp only
    rw [forall_prop_of_true rfl]
    cases hp : p.place m.tries with
    | none =>
      obtain ⟨hnull, -, howns⟩ := CHeap.Owns.malloc_none (Owned.start id p m.tries m.log) hp
      rw [if_pos hnull]
      have hnever : ∀ k, ¬ TplFails p m.tries k := by
        intro k hk
        have hsome := hk.1 0 (by omega)
        rw [Nat.add_zero, hp] at hsome
        cases hsome
      exact ⟨fun _ c _ => ⟨fun _ h => absurd h (hnever _), fun _ h => absurd h (hnever _)⟩, fun _ _ => (Owned.settled_iff howns).2 rfl⟩
    | some d =>
      obtain ⟨hd, hheld⟩ := tplHeld_table hp
      rw [if_neg (hd ▸ Nat.pos_iff_ne_zero.1 (p.pos _ d hp)), hd]
      have hat : TplAt p m.log m.tries d desc 0 ⟨(m.malloc p).1, desc, 0, 0, false⟩ := ⟨rfl, hheld, fun _ _ => rfl⟩
      have hloop := tplLoop_spec (n := ntextures.toNat) hat
      rw [Nat.zero_add] at hloop
      generalize tplLoop p ntextures.toNat 0 ⟨(m.malloc p).1, desc, 0, 0, false⟩ = s at hloop
      rcases hloop with hend | ⟨j, hj, hend⟩
      · rw [if_neg (Bool.eq_false_iff.1 hend.going)]
        refine ⟨fun _ c hc => ⟨fun himg h => ?_, fun hpal h => ?_⟩, fun _ (h : (1 : Int) = 0) => absurd h (by decide)⟩
        · have := tplBefore_le desc hc
          rw [images_eq himg] at this
          exact absurd h (hend.held.not_fails (by omega))
        · have := tplBefore_le desc hc
          rw [palettes_eq hpal] at this
          exact absurd h (hend.held.not_fails (by omega))
      · rw [if_pos hend.1, ← hend.cleaned_iff hj]
        exact forall_prop_of_true rfl

/-- Three blocks, and then nothing. -/
def tplThree : Places where
  place n := if n < 3 then some (n + 1) else none
  pos n a h := by
    split at h
    · cases h
      exact Nat.succ_pos n
    · cases h
  inj m n a hm hn := by
    split at hm
    · cases hm
      split at hn
      · exact (Nat.succ.inj (Option.some.inj hn)).symm
      · cases hn
    · cases hm

/-- The second texture's palette header is not there: the first texture's image header stays. -/
theorem tpl_open_leaked :
    ¬ TplCleaned ⟨0, []⟩ (tplOpenTPLFromHandle tplThree true 2 (fun c => if c = 0 then ⟨64, 0⟩ else ⟨100, 136⟩) ⟨0, []⟩) := by
  intro h
  obtain ⟨es, hes, hs⟩ := h (by decide)
  rw [List.nil_append] at hes
  rw [← hes] at hs
  exact absurd hs (by decide)

end Libogc
