import Libogc.Console.ConsoleRuns
import Mathlib.Tactic.Ring
import Mathlib.Data.Set.Basic
/-!
# ConsoleClear — the words that are cleared and those that are drawn

A part of a text line is sixteen runs of words.  `__console_drawc` finds them with the stride, `__console_clear_line` with the number of
pixels in a line: they are the same runs only where these two agree.
-/
namespace Libogc

/-- The offsets of the words that are written. -/
def conWritten (accesses : List ConAccess) : Set Int := { off | ∃ value, .write off value ∈ accesses }

/-- What `__console_drawc` writes with the cursor in `line`, from the column `start` to before `stop`. -/
def conDrawn (con : Console) (glyph : Int → UInt8) (line start stop : Int) : Set Int :=
  { off | ∃ c, start ≤ c ∧ c < stop ∧ off ∈ conWritten (consoleDrawc { con with cursorRow := line, cursorCol := c } (glyph c)) }

/-- The console as it was set up over a buffer in the address space. -/
structure ConLayout (con : Console) : Prop where
  stride : 2 * con.xres ≤ con.stride
  fits : con.stride * con.yres ≤ 2 ^ 32
  rows : con.rows = (con.yres / fontYsize : Nat)
  cols : con.cols = (con.xres / fontXsize : Nat)

/-- Sixteen runs of words, `pitch` words apart. -/
def conBlock (base pitch lo hi : Nat) : Set Int :=
  { off | ∃ y u : Nat, y < fontYsize ∧ lo ≤ u ∧ u < hi ∧ off = (4 * (base + pitch * y + u) : Nat) }

/-- Two blocks with the same columns are the same when they begin at one place and their runs are as far apart. -/
theorem conBlock_eq {base pitch base' pitch' lo hi : Nat} (h : lo < hi) :
    conBlock base pitch lo hi = conBlock base' pitch' lo hi ↔ base = base' ∧ pitch = pitch' := by
  have hsub : ∀ {b p b' p' : Nat}, conBlock b p lo hi ⊆ conBlock b' p' lo hi → b' ≤ b ∧ b + 15 * p ≤ b' + 15 * p' := by
    intro b p b' p' hle
    obtain ⟨y, u, -, hlo, -, he⟩ := hle ⟨0, lo, by decide, Nat.le_refl _, h, rfl⟩
    obtain ⟨y', u', hy', -, hhi', he'⟩ := hle ⟨15, hi - 1, by decide, by omega, by omega, rfl⟩
    have hy'' : p' * y' ≤ p' * 15 := Nat.mul_le_mul_left p' (Nat.le_of_lt_succ hy')
    omega
  refine ⟨fun he => ?_, fun he => by rw [he.1, he.2]⟩
  have h1 := hsub he.le
  have h2 := hsub he.ge
  omega

theorem mem_conWritten_lines {m n : Nat} {f : Nat → Nat → Int} {v : Nat → Nat → BitVec 32} {off : Int} :
    off ∈ conWritten ((List.range m).flatMap fun y => (List.range n).map fun j => .write (f y j) (v y j)) ↔
      ∃ y < m, ∃ j < n, off = f y j := by
  constructor
  · rintro ⟨value, hv⟩
    obtain ⟨y, hy, hv⟩ := List.mem_flatMap.mp hv
    obtain ⟨j, hj, hv⟩ := List.mem_map.mp hv
    exact ⟨y, List.mem_range.mp hy, j, List.mem_range.mp hj, (ConAccess.write.inj hv).1.symm⟩
  · rintro ⟨y, hy, j, hj, rfl⟩
    exact ⟨v y j, List.mem_flatMap.mpr ⟨y, List.mem_range.mpr hy, List.mem_map.mpr ⟨j, List.mem_range.mpr hj, rfl⟩⟩⟩

variable {con : Console}

theorem mem_conWritten_drawc (con : Console) (glyph : UInt8) (row col : Nat) (off : Int) :
    off ∈ conWritten (consoleDrawc { con with cursorRow := row, cursorCol := col } glyph) ↔
      con.xfbCopy = false ∧ off ∈ conBlock (4 * con.stride * row) (con.stride / 4) (4 * col) (4 * col + 4) := by
  have hcol : ((col : Int) * (fontXsize : Nat)).tdiv 2 * 4 = (16 * col : Nat) := by
    rw [show ((fontXsize : Nat) : Int) = 8 from rfl, Int.tdiv_eq_ediv_of_nonneg (by omega)]
    omega
  have hoff : ∀ y j : Nat, (con.stride * (row : Int) * (fontYsize : Nat) + ((col : Int) * (fontXsize : Nat)).tdiv 2 * 4 +
      4 * (con.stride / 4 : Nat) * y + 4 * j : Int) = (4 * (4 * con.stride * row + con.stride / 4 * y + (4 * col + j)) : Nat) := by
    intro y j
    rw [hcol, show ((fontYsize : Nat) : Int) = 16 from rfl]
    push_cast
    ring
  unfold consoleDrawc
  dsimp only
  by_cases hx : con.xfbCopy = true
  · rw [if_pos hx]
    exact iff_of_false (fun ⟨_, hv⟩ => List.not_mem_nil hv) fun h => Bool.noConfusion (hx.symm.trans h.1)
  · rw [if_neg hx, mem_conWritten_lines]
    refine Iff.trans ?_ (and_iff_right (Bool.eq_false_iff.mpr hx)).symm
    constructor
    · rintro ⟨y, hy, j, hj, rfl⟩
      exact ⟨y, 4 * col + j, hy, by omega, by omega, hoff y j⟩
    · rintro ⟨y, u, hy, hlo, hhi, rfl⟩
      refine ⟨y, hy, u - 4 * col, by omega, ?_⟩
      rw [hoff, show 4 * col + (u - 4 * col) = u by omega]

theorem conDrawn_eq (con : Console) (glyph : Int → UInt8) (row i k : Nat) :
    conDrawn con glyph row i k =
      { off | con.xfbCopy = false ∧ off ∈ conBlock (4 * con.stride * row) (con.stride / 4) (4 * i) (4 * k) } := by
  ext off
  constructor
  · rintro ⟨c, hi, hk, h⟩
    obtain ⟨col, rfl⟩ := Int.eq_ofNat_of_zero_le (show 0 ≤ c by omega)
    obtain ⟨hx, y, u, hy, hlo, hhi, he⟩ := (mem_conWritten_drawc con _ row col off).mp h
    exact ⟨hx, y, u, hy, by omega, by omega, he⟩
  · rintro ⟨hx, y, u, hy, hlo, hhi, he⟩
    refine ⟨(u / 4 : Nat), by omega, by omega, (mem_conWritten_drawc con _ row (u / 4) off).mpr ⟨hx, y, u, hy, ?_, ?_, he⟩⟩
    · omega
    · omega

/-- The words that are cleared: nothing wraps, since the line is a line of the screen. -/
theorem conWritten_clearLine (h : ConLayout con) {row i k : Nat} (hr : (row : Int) < con.rows) (hik : i ≤ k) (hk : (k : Int) ≤ con.cols) :
    conWritten (consoleClearLine con row i k) = conBlock (16 * (con.xres / 2) * row) (con.xres / 2) (4 * i) (4 * k) := by
  have hr' : row < con.yres / 16 := by
    rw [h.rows] at hr
    exact_mod_cast hr
  have hk' : k ≤ con.xres / 8 := by
    rw [h.cols] at hk
    exact_mod_cast hk
  have hroom : 16 * (con.xres / 2) * row + 4 * k < 2 ^ 32 := by
    have hs := h.stride
    have hf := h.fits
    have h16 : con.stride * (16 * row + 16) ≤ con.stride * con.yres := Nat.mul_le_mul_left _ (by omega)
    have hm : 16 * (con.xres / 2) * row ≤ con.stride * 4 * row := Nat.mul_le_mul_right row (by omega)
    have hsplit : con.stride * (16 * row + 16) = 4 * (con.stride * 4 * row) + con.stride * 16 := by ring
    omega
  have hp : ((row : Int) * (fontYsize * (con.xres / 2) : Nat) + i * (fontXsize / 2 : Nat)) % 2 ^ 32 =
      (16 * (con.xres / 2) * row + 4 * i : Nat) := by
    have he : ((row : Int) * (fontYsize * (con.xres / 2) : Nat) + i * (fontXsize / 2 : Nat)) =
        (16 * (con.xres / 2) * row + 4 * i : Nat) := by
      rw [show fontYsize = 16 from rfl, show fontXsize / 2 = 4 from rfl]
      push_cast
      ring
    rw [he]
    exact Int.emod_eq_of_lt (Int.natCast_nonneg _) (by omega)
  have hwidth : (((k : Int) - i) * (fontXsize / 2 : Nat) % 2 ^ 32).toNat = 4 * (k - i) := by
    rw [show ((fontXsize / 2 : Nat) : Int) = 4 from rfl, Int.emod_eq_of_lt (by omega) (by omega)]
    omega
  have hoff : ∀ y j : Nat, (4 * ((16 * (con.xres / 2) * row + 4 * i : Nat) + (y : Int) * (con.xres / 2 : Nat) + j) : Int) =
      (4 * (16 * (con.xres / 2) * row + con.xres / 2 * y + (4 * i + j)) : Nat) := by
    intro y j
    push_cast
    ring
  ext off
  unfold consoleClearLine
  dsimp only
  rw [hwidth, hp, mem_conWritten_lines]
  constructor
  · rintro ⟨y, hy, j, hj, rfl⟩
    exact ⟨y, 4 * i + j, hy, by omega, by omega, hoff y j⟩
  · rintro ⟨y, u, hy, hlo, hhi, rfl⟩
    refine ⟨y, hy, u - 4 * i, by omega, ?_⟩
    rw [hoff, show 4 * i + (u - 4 * i) = u by omega]

/-- **What is cleared is what is drawn** exactly when there is nothing to clear, or glyphs are drawn, the stride is that of the resolution
in words, and it is so in bytes too, or the line is the first. -/
theorem console_clear_matches (h : ConLayout con) (glyph : Int → UInt8) {line start stop : Int} (hl : 0 ≤ line ∧ line < con.rows)
    (h0 : 0 ≤ start) (h1 : start ≤ stop) (h2 : stop ≤ con.cols) :
    conWritten (consoleClearLine con line start stop) = conDrawn con glyph line start stop ↔
      start = stop ∨ (con.xfbCopy = false ∧ con.stride / 4 = con.xres / 2 ∧ (line = 0 ∨ con.stride = 4 * (con.xres / 2))) := by
  obtain ⟨row, rfl⟩ := Int.eq_ofNat_of_zero_le hl.1
  obtain ⟨i, rfl⟩ := Int.eq_ofNat_of_zero_le h0
  obtain ⟨k, rfl⟩ := Int.eq_ofNat_of_zero_le (h0.trans h1)
  rw [conWritten_clearLine h hl.2 (by omega) h2, conDrawn_eq]
  by_cases hik : i = k
  · subst hik
    refine iff_of_true ?_ (.inl rfl)
    ext off
    constructor
    · rintro ⟨y, u, -, hlo, hhi, -⟩
      omega
    · rintro ⟨-, y, u, -, hlo, hhi, -⟩
      omega
  · have hlt : 4 * i < 4 * k := by omega
    rw [or_iff_right (by omega)]
    by_cases hx : con.xfbCopy = false
    · have hset : { off | con.xfbCopy = false ∧ off ∈ conBlock (4 * con.stride * row) (con.stride / 4) (4 * i) (4 * k) } =
          conBlock (4 * con.stride * row) (con.stride / 4) (4 * i) (4 * k) := Set.ext fun off => and_iff_right hx
      rw [hset, conBlock_eq hlt, and_iff_right hx, and_comm, eq_comm, Int.natCast_eq_zero]
      refine and_congr_right fun _ => ?_
      rw [show 16 * (con.xres / 2) * row = 4 * (4 * (con.xres / 2)) * row by ring, mul_eq_mul_right_iff]
      omega
    · -- nothing is drawn
      refine iff_of_false (fun he => ?_) fun hh => hx hh.1
      have hmem : ((4 * (16 * (con.xres / 2) * row + con.xres / 2 * 0 + 4 * i) : Nat) : Int) ∈
          conBlock (16 * (con.xres / 2) * row) (con.xres / 2) (4 * i) (4 * k) := ⟨0, 4 * i, by decide, Nat.le_refl _, hlt, rfl⟩
      rw [he] at hmem
      exact hx hmem.1

/-- A console over the whole buffer, its line cleared from the cursor. -/
theorem console_clear_matches_line :
    conWritten (consoleClearLine (consoleInit blankFont 640 480 1280).1 3 10 80) =
        conDrawn (consoleInit blankFont 640 480 1280).1 (fun _ => 65) 3 10 80 ↔
      (10 : Int) = 80 ∨ (false = false ∧ 1280 / 4 = 640 / 2 ∧ ((3 : Int) = 0 ∨ 1280 = 4 * (640 / 2))) :=
  console_clear_matches ⟨by decide, by decide, rfl, rfl⟩ (fun _ => 65)
    (by decide) (by decide) (by decide) (by decide)

/-- A console in the left half of a buffer: the second run of words is cleared where none is drawn. -/
theorem console_clear_misses :
    ¬ conWritten (consoleClearLine (consoleInit blankFont 320 240 1280).1 0 0 1) =
      conDrawn (consoleInit blankFont 320 240 1280).1 (fun _ => 65) 0 0 1 := by
  intro he
  have hmem : (640 : Int) ∈ conWritten (consoleClearLine (consoleInit blankFont 320 240 1280).1 0 0 1) :=
    mem_conWritten_lines.mpr ⟨1, by decide, 0, by decide, by decide⟩
  rw [he] at hmem
  obtain ⟨-, y, u, -, -, hu, hoff⟩ := (conDrawn_eq (consoleInit blankFont 320 240 1280).1 _ 0 0 1).le hmem
  have hoff : (640 : Int) = (4 * (4 * 1280 * 0 + 1280 / 4 * y + u) : Nat) := hoff
  omega

end Libogc
