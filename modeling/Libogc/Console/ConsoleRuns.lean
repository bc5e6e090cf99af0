import Mathlib.Tactic.Ring
import Libogc.Console.Console
/-!
# ConsoleRuns — where the cursor is, and what is touched

The characters and escape sequences of a text do not depend on the console, so a sequence of calls is a run of `ConEvent`s
(`consoleWrites_eq`).  A cursor inside the screen (`InScreen`) keeps every access inside the buffer, but for a few commands;
`consoleKeepsCursor` and `consoleStaysInside` leave just these out.
-/
namespace Libogc

open Runs

set_option linter.unusedVariables false

/-! ## A sequence of calls as a run -/

/-- The rounds of `consoleLoop`. -/
def consoleEvents : Nat → List UInt8 → Nat → Nat → List ConEvent
  | 0, _, _, _ => []
  | fuel + 1, tmp, i, len =>
    if tmp.headD 0 ≠ 0 ∧ i < len then
      (consoleNext tmp).1 :: consoleEvents fuel (tmp.drop (consoleNext tmp).2) (i + (consoleNext tmp).2) len
    else []

/-- What a call of `__console_write` sends to the console. -/
def consoleCallEvents (call : List UInt8 × Nat) : List ConEvent := consoleEvents call.2 call.1 0 call.2

/-- **The console and whoever writes to it.** -/
def consoleSystem : System Console ConEvent where
  enabled _ _ := True
  next con e := (consoleStep con e).1

instance (con : Console) (e : ConEvent) : Decidable (consoleSystem.enabled con e) := inferInstanceAs (Decidable True)

/-- What a run touches. -/
def consoleTouched (con : Console) : List ConEvent → List ConAccess
  | [] => []
  | e :: es => (consoleStep con e).2 ++ consoleTouched (consoleStep con e).1 es

theorem consoleTouched_append (con : Console) (es es' : List ConEvent) :
    consoleTouched con (es ++ es') = consoleTouched con es ++ consoleTouched (consoleSystem.run con es) es' := by
  induction es generalizing con with
  | nil => rfl
  | cons e es ih =>
    rw [List.cons_append, consoleTouched, ih, consoleTouched, List.append_assoc]
    rfl

theorem consoleLoop_eq (fuel : Nat) : ∀ (con : Console) (tmp : List UInt8) (i len : Nat),
    (consoleLoop fuel con tmp i len).1 = consoleSystem.run con (consoleEvents fuel tmp i len) ∧
      (consoleLoop fuel con tmp i len).2.1 = consoleTouched con (consoleEvents fuel tmp i len) := by
  induction fuel with
  | zero => exact fun _ _ _ _ => ⟨rfl, rfl⟩
  | succ fuel ih =>
    intro con tmp i len
    rw [consoleLoop, consoleEvents]
    split
    · obtain ⟨h1, h2⟩ := ih (consoleStep con (consoleNext tmp).1).1 (tmp.drop (consoleNext tmp).2) (i + (consoleNext tmp).2) len
      exact ⟨h1, congrArg ((consoleStep con (consoleNext tmp).1).2 ++ ·) h2⟩
    · exact ⟨rfl, rfl⟩

theorem consoleNext_pos (tmp : List UInt8) : 0 < (consoleNext tmp).2 := by
  unfold consoleNext
  dsimp only
  split
  · exact Nat.add_pos_left (by decide) _
  · exact Nat.one_pos

theorem consoleLoop_succ (fuel : Nat) (con : Console) (tmp : List UInt8) (i len : Nat) :
    consoleLoop (fuel + 1) con tmp i len =
      if tmp.headD 0 ≠ 0 ∧ i < len then
        ((consoleLoop fuel (consoleStep con (consoleNext tmp).1).1 (tmp.drop (consoleNext tmp).2) (i + (consoleNext tmp).2) len).1,
          (consoleStep con (consoleNext tmp).1).2 ++
            (consoleLoop fuel (consoleStep con (consoleNext tmp).1).1 (tmp.drop (consoleNext tmp).2) (i + (consoleNext tmp).2)
              len).2.1,
          (consoleLoop fuel (consoleStep con (consoleNext tmp).1).1 (tmp.drop (consoleNext tmp).2) (i + (consoleNext tmp).2)
            len).2.2)
      else (con, [], i) := rfl

/-- **The loop ends by its own condition**: more rounds than characters change nothing. -/
theorem consoleLoop_fuel (fuel : Nat) : ∀ (con : Console) (tmp : List UInt8) (i len : Nat), len ≤ i + fuel →
    consoleLoop (fuel + 1) con tmp i len = consoleLoop fuel con tmp i len := by
  induction fuel with
  | zero =>
    intro con tmp i len hlen
    rw [consoleLoop_succ, if_neg (by omega)]
    rfl
  | succ fuel ih =>
    intro con tmp i len hlen
    have hpos := consoleNext_pos tmp
    rw [consoleLoop_succ, ih _ _ _ _ (by omega), consoleLoop_succ fuel]

theorem consoleWrite_eq (con : Console) (ptr : List UInt8) (len : Nat) :
    (consoleWrite con ptr len).1 = consoleSystem.run con (consoleCallEvents (ptr, len)) ∧
      (consoleWrite con ptr len).2.1 = consoleTouched con (consoleCallEvents (ptr, len)) := by
  unfold consoleWrite
  split
  · rename_i hlen
    subst hlen
    exact ⟨rfl, rfl⟩
  · exact consoleLoop_eq len con ptr 0 len

theorem consoleWrites_eq (calls : List (List UInt8 × Nat)) : ∀ con : Console,
    (consoleWrites con calls).1 = consoleSystem.run con (calls.flatMap consoleCallEvents) ∧
      (consoleWrites con calls).2 = consoleTouched con (calls.flatMap consoleCallEvents) := by
  induction calls with
  | nil => exact fun _ => ⟨rfl, rfl⟩
  | cons call calls ih =>
    intro con
    obtain ⟨ptr, len⟩ := call
    obtain ⟨h1, h2⟩ := consoleWrite_eq con ptr len
    obtain ⟨h3, h4⟩ := ih (consoleWrite con ptr len).1
    rw [List.flatMap_cons, System.run_append, consoleTouched_append, ← h1, ← h2]
    exact ⟨h3, congrArg ((consoleWrite con ptr len).2.1 ++ ·) h4⟩

/-! ## The cursor -/

/-- **The cursor is inside the screen**, and so is the saved one. -/
structure InScreen (con : Console) : Prop where
  row : 0 ≤ con.cursorRow ∧ con.cursorRow < con.rows
  col : 0 ≤ con.cursorCol ∧ con.cursorCol < con.cols
  savedRow : 0 ≤ con.savedRow ∧ con.savedRow < con.rows
  savedCol : 0 ≤ con.savedCol ∧ con.savedCol < con.cols

/-- Where the next tab stop is. -/
def tabStop (col : Int) : Int := (col / tabSize + 1) * tabSize

/-- No parameter that moves the cursor wrapped to a negative one, and no sum with the cursor wraps. -/
def ParamsInRange (con : Console) (p₀ p₁ : Int) : ConCommand → Prop
  | .up | .left => 0 ≤ p₀
  | .down => 0 ≤ p₀ ∧ con.cursorRow + p₀ < 2 ^ 31
  | .right => 0 ≤ p₀ ∧ con.cursorCol + p₀ < 2 ^ 31
  | .position => 0 ≤ p₀ ∧ 0 ≤ p₁
  | .clearScreen | .clearLine | .save | .load | .sgr | .unknown => True

instance (con : Console) (p₀ p₁ : Int) : ∀ c, Decidable (ParamsInRange con p₀ p₁ c)
  | .up | .left => inferInstanceAs (Decidable (_ ≤ _))
  | .down | .right | .position => inferInstanceAs (Decidable (_ ∧ _))
  | .clearScreen | .clearLine | .save | .load | .sgr | .unknown => inferInstanceAs (Decidable True)

/-- A tab is sent from a column with an even number of columns to the next tab stop, which is on the screen. -/
def consoleKeepsCursor (con : Console) : ConEvent → Prop
  | .chr c => c = conChar '\t' → con.cursorCol % 2 = 0 ∧ tabStop con.cursorCol < con.cols
  | .esc p₀ p₁ final => ParamsInRange con p₀.toInt p₁.toInt (conCommand final)

instance (con : Console) : ∀ e, Decidable (consoleKeepsCursor con e)
  | .chr _ => inferInstanceAs (Decidable (_ → _))
  | .esc _ _ _ => inferInstanceAs (Decidable (ParamsInRange ..))

/-- What the console never changes. -/
structure SameScreen (con con' : Console) : Prop where
  xres : con'.xres = con.xres
  yres : con'.yres = con.yres
  stride : con'.stride = con.stride
  rows : con'.rows = con.rows
  cols : con'.cols = con.cols

theorem SameScreen.refl (con : Console) : SameScreen con con := ⟨rfl, rfl, rfl, rfl, rfl⟩

theorem SameScreen.trans {a b c : Console} (h : SameScreen a b) (h' : SameScreen b c) : SameScreen a c :=
  ⟨h'.xres.trans h.xres, h'.yres.trans h.yres, h'.stride.trans h.stride, h'.rows.trans h.rows, h'.cols.trans h.cols⟩

/-- The same before the text moves up: the cursor may be in the row below the screen. -/
structure AboveScroll (con : Console) : Prop where
  row : 0 ≤ con.cursorRow ∧ con.cursorRow ≤ con.rows
  col : 0 ≤ con.cursorCol ∧ con.cursorCol < con.cols
  savedRow : 0 ≤ con.savedRow ∧ con.savedRow < con.rows
  savedCol : 0 ≤ con.savedCol ∧ con.savedCol < con.cols

theorem InScreen.above {con : Console} (h : InScreen con) : AboveScroll con :=
  ⟨⟨h.row.1, le_of_lt h.row.2⟩, h.col, h.savedRow, h.savedCol⟩

variable {con : Console}

theorem consoleScroll_same (con : Console) : SameScreen con (consoleScroll con).1 := by
  unfold consoleScroll
  split <;> exact ⟨rfl, rfl, rfl, rfl, rfl⟩

theorem AboveScroll.scroll (h : AboveScroll con) : InScreen (consoleScroll con).1 := by
  obtain ⟨⟨h0, h1⟩, hcol, ⟨hs0, hs1⟩, hsc⟩ := h
  unfold consoleScroll
  split
  · rename_i hr
    have hrow : 0 ≤ con.cursorRow - 1 ∧ con.cursorRow - 1 < con.rows := by omega
    exact ⟨hrow, hcol, ⟨hs0, hs1⟩, hsc⟩
  · rename_i hr
    have hrow : 0 ≤ con.cursorRow ∧ con.cursorRow < con.rows := by omega
    exact ⟨hrow, hcol, ⟨hs0, hs1⟩, hsc⟩

/-! ### Characters -/

theorem consoleChar_same (con : Console) (c : UInt8) : SameScreen con (consoleChar con c).1 := by
  unfold consoleChar
  dsimp only
  repeat' split
  all_goals exact ⟨rfl, rfl, rfl, rfl, rfl⟩

theorem tab_column {col : Int} (h0 : 0 ≤ col) (h2 : col % 2 = 0) :
    (if col.tmod tabSize ≠ 0 then col + col.tmod tabSize else col + tabSize) = tabStop col := by
  have hmod : col.tmod tabSize = col % 4 := Int.tmod_eq_emod_of_nonneg h0
  have hsize : ((tabSize : Nat) : Int) = 4 := rfl
  unfold tabStop
  rw [hmod, hsize]
  split <;> omega

theorem consoleChar_tab (con : Console) : consoleChar con (conChar '\t') = ({ con with
    cursorCol :=
      if con.cursorCol.tmod tabSize ≠ 0 then con.cursorCol + con.cursorCol.tmod tabSize else con.cursorCol + tabSize }, []) := by
  unfold consoleChar
  rw [if_neg (by decide), if_neg (by decide), if_neg (by decide), if_neg (by decide), if_pos rfl]

variable {c : UInt8} {p₀ p₁ line : Int} {con' : Console} {e : ConEvent} {es : List ConEvent}

theorem InScreen.chr (h : InScreen con)
    (htab : c = conChar '\t' → 0 ≤ (consoleChar con c).1.cursorCol ∧ (consoleChar con c).1.cursorCol < con.cols) :
    AboveScroll (consoleChar con c).1 := by
  obtain ⟨⟨hr0, hr1⟩, ⟨hc0, hc1⟩, hsr, hsc⟩ := h
  have hrow : 0 ≤ con.cursorRow ∧ con.cursorRow ≤ con.rows := ⟨hr0, le_of_lt hr1⟩
  have hrow' : 0 ≤ con.cursorRow + 1 ∧ con.cursorRow + 1 ≤ con.rows := by omega
  have hcol₀ : (0 : Int) ≤ 0 ∧ 0 < con.cols := by omega
  by_cases ht : c = conChar '\t'
  · have hcol := htab ht
    subst ht
    rw [consoleChar_tab] at hcol ⊢
    exact ⟨hrow, hcol, hsr, hsc⟩
  · unfold consoleChar
    dsimp only
    rw [if_neg ht]
    split
    · exact ⟨hrow', hcol₀, hsr, hsc⟩
    split
    · exact ⟨hrow, hcol₀, hsr, hsc⟩
    split
    · have hcol : 0 ≤ (if con.cursorCol - 1 < 0 then 0 else con.cursorCol - 1) ∧
          (if con.cursorCol - 1 < 0 then 0 else con.cursorCol - 1) < con.cols := by split <;> omega
      exact ⟨hrow, hcol, hsr, hsc⟩
    split
    · exact ⟨hrow', ⟨hc0, hc1⟩, hsr, hsc⟩
    split
    · exact ⟨hrow', hcol₀, hsr, hsc⟩
    · rename_i hin
      have hcol : 0 ≤ con.cursorCol + 1 ∧ con.cursorCol + 1 < con.cols := by omega
      exact ⟨hrow, hcol, hsr, hsc⟩

/-! ### Escape sequences -/

theorem consoleSgr_keeps (con : Console) (p₀ p₁ : Int) :
    SameScreen con (consoleSgr con p₀ p₁).1 ∧ (InScreen con → InScreen (consoleSgr con p₀ p₁).1) := by
  unfold consoleSgr
  dsimp only
  split
  · exact ⟨⟨rfl, rfl, rfl, rfl, rfl⟩, fun h => ⟨h.row, h.col, h.savedRow, h.savedCol⟩⟩
  split
  · exact ⟨⟨rfl, rfl, rfl, rfl, rfl⟩, fun h => ⟨h.row, h.col, h.savedRow, h.savedCol⟩⟩
  · exact ⟨⟨rfl, rfl, rfl, rfl, rfl⟩, id⟩

theorem consoleEscape_same (con : Console) (p₀ p₁ : Int) (c : ConCommand) : SameScreen con (consoleEscape con p₀ p₁ c).1 := by
  cases c with
  | sgr => exact (consoleSgr_keeps con p₀ p₁).1
  | clearScreen | clearLine =>
    simp only [consoleEscape]
    repeat' split
    all_goals exact ⟨rfl, rfl, rfl, rfl, rfl⟩
  | _ => exact ⟨rfl, rfl, rfl, rfl, rfl⟩

/-- **An escape sequence keeps the cursor on the screen**, whatever its command, when its parameters are in range. -/
theorem InScreen.escape (h : InScreen con) (hp₀ : p₀ < 2 ^ 31) {c : ConCommand} (hp : ParamsInRange con p₀ p₁ c)
    (hrows : con.rows < 2 ^ 31) (hcols : con.cols < 2 ^ 31) : InScreen (consoleEscape con p₀ p₁ c).1 := by
  obtain ⟨⟨hr0, hr1⟩, ⟨hc0, hc1⟩, hsr, hsc⟩ := h
  have hrow₀ : (0 : Int) ≤ 0 ∧ 0 < con.rows := by omega
  have hcol₀ : (0 : Int) ≤ 0 ∧ 0 < con.cols := by omega
  cases c with
  | up =>
    have h0 : 0 ≤ p₀ := hp
    have hs : s32 (con.cursorRow - p₀) = con.cursorRow - p₀ := s32_of_range (by omega) (by omega)
    have hrow : 0 ≤ (if s32 (con.cursorRow - p₀) < 0 then 0 else s32 (con.cursorRow - p₀)) ∧
        (if s32 (con.cursorRow - p₀) < 0 then 0 else s32 (con.cursorRow - p₀)) < con.rows := by rw [hs]; split <;> omega
    exact ⟨hrow, ⟨hc0, hc1⟩, hsr, hsc⟩
  | down =>
    obtain ⟨h0, h1⟩ : 0 ≤ p₀ ∧ con.cursorRow + p₀ < 2 ^ 31 := hp
    have hs : s32 (con.cursorRow + p₀) = con.cursorRow + p₀ := s32_of_range (by omega) h1
    have hrow : 0 ≤ (if s32 (con.cursorRow + p₀) ≥ con.rows then con.rows - 1 else s32 (con.cursorRow + p₀)) ∧
        (if s32 (con.cursorRow + p₀) ≥ con.rows then con.rows - 1 else s32 (con.cursorRow + p₀)) < con.rows := by
      rw [hs]
      split <;> omega
    exact ⟨hrow, ⟨hc0, hc1⟩, hsr, hsc⟩
  | right =>
    obtain ⟨h0, h1⟩ : 0 ≤ p₀ ∧ con.cursorCol + p₀ < 2 ^ 31 := hp
    have hs : s32 (con.cursorCol + p₀) = con.cursorCol + p₀ := s32_of_range (by omega) h1
    have hcol : 0 ≤ (if s32 (con.cursorCol + p₀) ≥ con.cols then con.cols - 1 else s32 (con.cursorCol + p₀)) ∧
        (if s32 (con.cursorCol + p₀) ≥ con.cols then con.cols - 1 else s32 (con.cursorCol + p₀)) < con.cols := by
      rw [hs]
      split <;> omega
    exact ⟨⟨hr0, hr1⟩, hcol, hsr, hsc⟩
  | left =>
    have h0 : 0 ≤ p₀ := hp
    have hs : s32 (con.cursorCol - p₀) = con.cursorCol - p₀ := s32_of_range (by omega) (by omega)
    have hcol : 0 ≤ (if s32 (con.cursorCol - p₀) < 0 then 0 else s32 (con.cursorCol - p₀)) ∧
        (if s32 (con.cursorCol - p₀) < 0 then 0 else s32 (con.cursorCol - p₀)) < con.cols := by rw [hs]; split <;> omega
    exact ⟨⟨hr0, hr1⟩, hcol, hsr, hsc⟩
  | position =>
    obtain ⟨h0, h1⟩ : 0 ≤ p₀ ∧ 0 ≤ p₁ := hp
    have hrow : 0 ≤ (if p₀ ≥ con.rows then con.rows - 1 else p₀) ∧ (if p₀ ≥ con.rows then con.rows - 1 else p₀) < con.rows := by
      split <;> omega
    have hcol : 0 ≤ (if p₁ ≥ con.cols then con.cols - 1 else p₁) ∧ (if p₁ ≥ con.cols then con.cols - 1 else p₁) < con.cols := by
      split <;> omega
    exact ⟨hrow, hcol, hsr, hsc⟩
  | clearScreen =>
    simp only [consoleEscape]
    split
    · exact ⟨⟨hr0, hr1⟩, ⟨hc0, hc1⟩, hsr, hsc⟩
    split
    · exact ⟨⟨hr0, hr1⟩, ⟨hc0, hc1⟩, hsr, hsc⟩
    split
    · exact ⟨hrow₀, hcol₀, hrow₀, hcol₀⟩
    · exact ⟨⟨hr0, hr1⟩, ⟨hc0, hc1⟩, hsr, hsc⟩
  | clearLine =>
    simp only [consoleEscape]
    repeat' split
    all_goals exact ⟨⟨hr0, hr1⟩, ⟨hc0, hc1⟩, hsr, hsc⟩
  | save => exact ⟨⟨hr0, hr1⟩, ⟨hc0, hc1⟩, ⟨hr0, hr1⟩, ⟨hc0, hc1⟩⟩
  | load => exact ⟨hsr, hsc, hsr, hsc⟩
  | sgr => exact (consoleSgr_keeps con p₀ p₁).2 ⟨⟨hr0, hr1⟩, ⟨hc0, hc1⟩, hsr, hsc⟩
  | unknown => exact ⟨⟨hr0, hr1⟩, ⟨hc0, hc1⟩, hsr, hsc⟩

/-! ## Every run -/

/-- The screen as `__console_init` is given it: room for a character at least. -/
structure ScreenSize (con : Console) : Prop where
  rows : 0 < con.rows ∧ con.rows < 2 ^ 31
  cols : 0 < con.cols ∧ con.cols < 2 ^ 31

theorem SameScreen.size (hs : SameScreen con con') (h : ScreenSize con) : ScreenSize con' :=
  ⟨by rw [hs.rows]; exact h.rows, by rw [hs.cols]; exact h.cols⟩

theorem consoleStep_same (con : Console) (e : ConEvent) : SameScreen con (consoleStep con e).1 := by
  cases e with
  | chr c => exact (consoleChar_same con c).trans (consoleScroll_same _)
  | esc p₀ p₁ final => exact (consoleEscape_same con _ _ _).trans (consoleScroll_same _)

theorem InScreen.step (h : InScreen con) (hsize : ScreenSize con)
    (hparams : ∀ p₀ p₁ final, e = .esc p₀ p₁ final → ParamsInRange con p₀.toInt p₁.toInt (conCommand final))
    (htab : e = .chr (conChar '\t') → 0 ≤ (consoleChar con (conChar '\t')).1.cursorCol ∧ (consoleChar con (conChar '\t')).1.cursorCol < con.cols) :
    InScreen (consoleStep con e).1 := by
  cases e with
  | chr c =>
    refine AboveScroll.scroll (h.chr fun hc => ?_)
    subst hc
    exact htab rfl
  | esc p₀ p₁ final =>
    exact AboveScroll.scroll (h.escape BitVec.toInt_lt (hparams p₀ p₁ final rfl) hsize.rows.2 hsize.cols.2).above

theorem InScreen.tab (h : InScreen con) (hk : consoleKeepsCursor con (.chr (conChar '\t'))) :
    (consoleChar con (conChar '\t')).1.cursorCol = tabStop con.cursorCol ∧
      0 ≤ (consoleChar con (conChar '\t')).1.cursorCol ∧ (consoleChar con (conChar '\t')).1.cursorCol < con.cols := by
  obtain ⟨heven, hin⟩ := hk rfl
  have hcol : (consoleChar con (conChar '\t')).1.cursorCol = tabStop con.cursorCol := by
    rw [consoleChar_tab]
    exact tab_column h.col.1 heven
  have h0 := h.col.1
  have hstop : tabStop con.cursorCol = (con.cursorCol / 4 + 1) * 4 := rfl
  refine ⟨hcol, ?_, by rw [hcol]; exact hin⟩
  rw [hcol, hstop]
  omega

theorem InScreen.keeps (h : InScreen con) (hsize : ScreenSize con) (hk : consoleKeepsCursor con e) : InScreen (consoleStep con e).1 := by
  refine h.step hsize (fun p₀ p₁ final he => ?_) fun he => ?_
  · subst he
    exact hk
  · subst he
    exact (h.tab hk).2

theorem consoleInit_inScreen (font : Nat → BitVec 8) {xres yres : Nat} (hx : 8 ≤ xres ∧ xres < 2 ^ 31)
    (hy : 16 ≤ yres ∧ yres < 2 ^ 31) (stride : Nat) :
    InScreen (consoleInit font xres yres stride).1 ∧ ScreenSize (consoleInit font xres yres stride).1 := by
  have hrows : (0 : Int) < (yres / 16 : Nat) ∧ ((yres / 16 : Nat) : Int) < 2 ^ 31 := by omega
  have hcols : (0 : Int) < (xres / 8 : Nat) ∧ ((xres / 8 : Nat) : Int) < 2 ^ 31 := by omega
  exact ⟨⟨⟨le_refl _, hrows.1⟩, ⟨le_refl _, hcols.1⟩, ⟨le_refl _, hrows.1⟩, ⟨le_refl _, hcols.1⟩⟩, hrows, hcols⟩

theorem consoleSystem_inScreen (h : InScreen con ∧ ScreenSize con) (hes : (consoleSystem.restrict consoleKeepsCursor).Legal con es) :
    InScreen (consoleSystem.run con es) ∧ ScreenSize (consoleSystem.run con es) := by
  have hrun : consoleSystem.run con es = (consoleSystem.restrict consoleKeepsCursor).run con es := rfl
  rw [hrun]
  refine System.Legal.invariant (I := fun con => InScreen con ∧ ScreenSize con) (fun con e ⟨h, hsize⟩ hg => ?_) h hes
  exact ⟨h.keeps hsize hg.2, (consoleStep_same con e).size hsize⟩

/-- **The cursor stays on the screen.**  In every sequence of calls of `__console_write` of which no escape sequence has a parameter
out of range and no tab is sent from an odd column or from the last tab stop of a row: at every character and every escape
sequence the cursor is on the screen, before it, which is where `__console_drawc` draws, and after it; and a tab moves it to the
next tab stop of the row. -/
theorem console_cursor (font : Nat → BitVec 8) (xres yres stride : Nat) (hx : 8 ≤ xres ∧ xres < 2 ^ 31)
    (hy : 16 ≤ yres ∧ yres < 2 ^ 31) (calls : List (List UInt8 × Nat))
    (hcalls : (consoleSystem.restrict consoleKeepsCursor).Legal (consoleInit font xres yres stride).1
      (calls.flatMap consoleCallEvents))
    (pre post : List ConEvent) (e : ConEvent) (hsplit : calls.flatMap consoleCallEvents = pre ++ e :: post) (con con' : Console)
    (hcon : con = consoleSystem.run (consoleInit font xres yres stride).1 pre) (hcon' : con' = (consoleStep con e).1) :
    (0 ≤ con.cursorRow ∧ con.cursorRow < con.rows) ∧ (0 ≤ con.cursorCol ∧ con.cursorCol < con.cols) ∧
    (0 ≤ con'.cursorRow ∧ con'.cursorRow < con.rows) ∧ (0 ≤ con'.cursorCol ∧ con'.cursorCol < con.cols) ∧
    (e = .chr (conChar '\t') → con'.cursorCol = tabStop con.cursorCol ∧ con'.cursorRow = con.cursorRow) := by
  rw [hsplit] at hcalls
  obtain ⟨h, hsize⟩ := consoleSystem_inScreen (consoleInit_inScreen font hx hy stride) hcalls.left
  rw [← hcon] at h hsize
  have hk : consoleKeepsCursor con e := by
    rw [hcon]
    exact hcalls.right.1.2
  have h' := h.keeps hsize hk
  have hs := consoleStep_same con e
  rw [← hcon'] at h' hs
  refine ⟨h.row, h.col, hs.rows ▸ h'.row, hs.cols ▸ h'.col, fun he => ?_⟩
  subst he
  obtain ⟨hcol, hin⟩ := h.tab hk
  have hstep : con' = (consoleScroll (consoleChar con (conChar '\t')).1).1 := hcon'
  have hrow : (consoleChar con (conChar '\t')).1.cursorRow = con.cursorRow := by rw [consoleChar_tab]
  have hstay : consoleScroll (consoleChar con (conChar '\t')).1 = ((consoleChar con (conChar '\t')).1, []) := by
    unfold consoleScroll
    rw [if_neg]
    rw [hrow, (consoleChar_same con _).rows]
    exact not_le.2 h.row.2
  rw [hstep, hstay]
  exact ⟨hcol, hrow⟩

/-- A font without a mark. -/
def blankFont (_ : Nat) : BitVec 8 := 0

/-- The characters of a text. -/
def conText (cs : List Char) : List UInt8 := cs.map conChar

/-- Two calls on a screen of four rows of sixteen columns. -/
def cursorSample : List (List UInt8 × Nat) :=
  [(conText ['a', 'b', '\t', 'c', '\n', '\x1b', '[', '3', ';', '1', '0', 'H'], 12), (conText ['\x1b', '[', 'B', '\t', '\n'], 5)]

theorem console_cursor_sample :
    (consoleSystem.restrict consoleKeepsCursor).Legal (consoleInit blankFont 128 64 256).1
        (cursorSample.flatMap consoleCallEvents) ∧
      (consoleStep (consoleSystem.run (consoleInit blankFont 128 64 256).1 [.chr (conChar 'a'), .chr (conChar 'b')])
        (.chr (conChar '\t'))).1.cursorCol = 4 := by
  have hl : (consoleSystem.restrict consoleKeepsCursor).Legal (consoleInit blankFont 128 64 256).1
      (cursorSample.flatMap consoleCallEvents) := by decide +kernel
  obtain ⟨-, -, -, -, htab⟩ := console_cursor blankFont 128 64 256 (by decide) (by decide) cursorSample hl
    [.chr (conChar 'a'), .chr (conChar 'b')] [.chr (conChar 'c'), .chr (conChar '\n'), .esc 3 10 (conChar 'H'),
      .esc 0 0 (conChar 'B'), .chr (conChar '\t'), .chr (conChar '\n')] (.chr (conChar '\t')) (by decide +kernel) _ _ rfl rfl
  refine ⟨hl, (htab rfl).1.trans ?_⟩
  decide +kernel

/-- **A tab adds the column's remainder**: from column 1 it goes to column 2, and from the last tab stop of a row of sixteen
columns to column 16, which is beyond the screen.  A parameter of 2^31 is negative. -/
theorem console_cursor_misses :
    (consoleSystem.run (consoleInit blankFont 128 64 256).1 ([(conText ['a', '\t'], 2)].flatMap consoleCallEvents)).cursorCol = 2 ∧
    (consoleSystem.run (consoleInit blankFont 128 64 256).1
      ([(conText ['\t', '\t', '\t', '\t'], 4)].flatMap consoleCallEvents)).cursorCol = 16 ∧
    (consoleSystem.run (consoleInit blankFont 128 64 256).1 ([(conText ['\x1b', '[', '2', '1', '4', '7', '4', '8', '3', '6', '4',
      '8', 'H'], 13)].flatMap consoleCallEvents)).cursorRow = -2147483648 := by
  decide +kernel

/-! ## What is touched -/

/-- An access inside a buffer of so many bytes, and inside `color_table`. -/
def ConAccess.Inside (size : Int) : ConAccess → Prop
  | .write off _ => 0 ≤ off ∧ off + 4 ≤ size
  | .copy dst src len => (0 ≤ dst ∧ dst + len ≤ size) ∧ 0 ≤ src ∧ src + len ≤ size
  | .color index => 0 ≤ index ∧ index < 16

instance (size : Int) : ∀ a : ConAccess, Decidable (a.Inside size)
  | .write _ _ | .copy _ _ _ | .color _ => inferInstanceAs (Decidable (_ ∧ _))

/-- The number of bytes in the destination buffer. -/
def Console.size (con : Console) : Nat := con.stride * con.yres

/-- **A geometry with its buffer**, which lies in the address space. -/
structure Geometry (con : Console) : Prop where
  xres : 8 ≤ con.xres ∧ con.xres % 2 = 0
  yres : 16 ≤ con.yres
  stride : 2 * con.xres ≤ con.stride
  fits : con.size ≤ 2 ^ 32
  rows : con.rows = (con.yres / fontYsize : Nat)
  cols : con.cols = (con.xres / fontXsize : Nat)

theorem SameScreen.geometry (hs : SameScreen con con') (h : Geometry con) : Geometry con' := by
  obtain ⟨h1, h2, h3, h4, h5, h6⟩ := h
  unfold Console.size at h4
  refine ⟨by rw [hs.xres]; exact h1, by rw [hs.yres]; exact h2, by rw [hs.xres, hs.stride]; exact h3, ?_,
    by rw [hs.rows, hs.yres]; exact h5, by rw [hs.cols, hs.xres]; exact h6⟩
  unfold Console.size
  rw [hs.stride, hs.yres]
  exact h4

theorem Geometry.lines (h : Geometry con) {n : Nat} (hn : n ≤ con.yres) : con.stride * n ≤ con.size :=
  Nat.mul_le_mul_left con.stride hn

theorem Geometry.screenSize (h : Geometry con) : ScreenSize con := by
  obtain ⟨⟨hx, -⟩, hy, hs, hf, hr, hc⟩ := h
  have h16 : 16 * con.yres ≤ con.size := Nat.mul_le_mul_right con.yres (by omega)
  have hst : con.stride * 16 ≤ con.size := Nat.mul_le_mul_left con.stride hy
  have hy' : ((fontYsize : Nat) : Int) = 16 := rfl
  have hx' : ((fontXsize : Nat) : Int) = 8 := rfl
  refine ⟨?_, ?_⟩
  · rw [hr]
    push_cast
    rw [hy']
    omega
  · rw [hc]
    push_cast
    rw [hx']
    omega

theorem consoleDrawc_inside (h : Geometry con) (hin : InScreen con) (c : UInt8) : ∀ a ∈ consoleDrawc con c, a.Inside con.size := by
  unfold consoleDrawc
  split
  · exact fun a ha => by cases ha
  · intro a ha
    obtain ⟨ay, hay, ha⟩ := List.mem_flatMap.1 ha
    obtain ⟨j, hj, rfl⟩ := List.mem_map.1 ha
    have hay' : ay < 16 := List.mem_range.1 hay
    have hj' : j < 4 := List.mem_range.1 hj
    obtain ⟨row, hrow⟩ := Int.eq_ofNat_of_zero_le hin.row.1
    obtain ⟨col, hcol⟩ := Int.eq_ofNat_of_zero_le hin.col.1
    have hr := hin.row.2
    have hc := hin.col.2
    rw [h.rows, hrow] at hr
    rw [h.cols, hcol] at hc
    have hr' : row < con.yres / 16 := by exact_mod_cast hr
    have hc' : col < con.xres / 8 := by exact_mod_cast hc
    have hstride := h.stride
    have hlines : con.stride * (16 * row + 16) ≤ con.size := h.lines (by omega)
    -- a line of the glyph is at most a stride further
    have hline : 4 * (con.stride / 4) * ay ≤ con.stride * 15 :=
      (Nat.mul_le_mul (by omega) (by omega : ay ≤ 15))
    have hmul : con.stride * (16 * row + 16) = con.stride * row * 16 + con.stride * 16 := by ring
    have hptr : ((con.cursorCol * fontXsize).tdiv 2 * 4 : Int) = (16 * col : Nat) := by
      rw [hcol, show ((fontXsize : Nat) : Int) = 8 from rfl, Int.tdiv_eq_ediv_of_nonneg (by omega)]
      omega
    have hoff : (con.stride * con.cursorRow * fontYsize + (con.cursorCol * fontXsize).tdiv 2 * 4 +
        4 * (con.stride / 4 : Nat) * ay + 4 * j : Int) = (con.stride * row * 16 + 16 * col + 4 * (con.stride / 4) * ay + 4 * j : Nat) := by
      rw [hptr, hrow, show ((fontYsize : Nat) : Int) = 16 from rfl]
      push_cast
      ring
    show 0 ≤ _ ∧ _
    rw [hoff]
    omega

theorem consoleClearLine_inside (h : Geometry con) {start stop : Int} (hl : 0 ≤ line) (h0 : 0 ≤ start) (h1 : start ≤ stop)
    (h2 : stop ≤ con.cols) (hroom : 4 * ((16 * line + 15) * (con.xres / 2 : Nat) + 4 * con.cols) ≤ con.size) :
    ∀ a ∈ consoleClearLine con line start stop, a.Inside con.size := by
  have hfits := h.fits
  obtain ⟨l, rfl⟩ := Int.eq_ofNat_of_zero_le hl
  obtain ⟨i, rfl⟩ := Int.eq_ofNat_of_zero_le h0
  obtain ⟨k, rfl⟩ := Int.eq_ofNat_of_zero_le (h0.trans h1)
  obtain ⟨cols, hcols⟩ := Int.eq_ofNat_of_zero_le (h.screenSize.cols.1.le)
  set xp := con.xres / 2 with hxp
  have hik : i ≤ k := by exact_mod_cast h1
  have hk : k ≤ cols := by rw [hcols] at h2; exact_mod_cast h2
  have hroom' : 4 * (16 * (l * xp) + 15 * xp + 4 * cols) ≤ con.size := by
    rw [hcols] at hroom
    have : (4 * ((16 * (l : Int) + 15) * xp + 4 * cols) : Int) = (4 * (16 * (l * xp) + 15 * xp + 4 * cols) : Nat) := by
      push_cast
      ring
    rw [this] at hroom
    exact_mod_cast hroom
  have hpx : (fontXsize / 2 : Nat) = 4 := rfl
  have hwidth : (((k : Int) - i) * (fontXsize / 2 : Nat) % 2 ^ 32).toNat = 4 * (k - i) := by
    rw [hpx, Int.emod_eq_of_lt (by omega) (by omega)]
    omega
  have hp : ((l : Int) * (fontYsize * xp : Nat) + i * (fontXsize / 2 : Nat)) % 2 ^ 32 = (16 * (l * xp) + 4 * i : Nat) := by
    have he : ((l : Int) * (fontYsize * xp : Nat) + i * (fontXsize / 2 : Nat)) = (16 * (l * xp) + 4 * i : Nat) := by
      rw [hpx, show fontYsize = 16 from rfl]
      push_cast
      ring
    rw [he]
    exact Int.emod_eq_of_lt (Int.natCast_nonneg _) (by omega)
  intro a ha
  unfold consoleClearLine at ha
  simp only [← hxp, hwidth, hp] at ha
  obtain ⟨y, hy, ha⟩ := List.mem_flatMap.1 ha
  obtain ⟨j, hj, rfl⟩ := List.mem_map.1 ha
  have hy' : y < 16 := List.mem_range.1 hy
  have hj' : j < 4 * (k - i) := List.mem_range.1 hj
  have hyx : y * xp ≤ 15 * xp := Nat.mul_le_mul_right xp (by omega)
  have hoff : (4 * ((16 * (l * xp) + 4 * i : Nat) + (y : Int) * xp + j) : Int) =
      (4 * (16 * (l * xp) + 4 * i + y * xp + j) : Nat) := by
    push_cast
    ring
  show 0 ≤ _ ∧ _
  rw [hoff]
  omega

theorem Geometry.room (h : Geometry con) (hl : line < con.rows) (hl0 : 0 ≤ line) :
    4 * ((16 * line + 15) * (con.xres / 2 : Nat) + 4 * con.cols) ≤ con.size := by
  obtain ⟨l, rfl⟩ := Int.eq_ofNat_of_zero_le hl0
  rw [h.rows] at hl
  have hl' : l < con.yres / 16 := by exact_mod_cast hl
  have hxe := h.xres.2
  have hstride := h.stride
  have hlines : con.stride * (16 * l + 16) ≤ con.size := h.lines (by omega)
  have hwords : 4 * (con.xres / 2) * (16 * l + 16) ≤ con.stride * (16 * l + 16) := Nat.mul_le_mul_right _ (by omega)
  have hmul : 4 * (con.xres / 2) * (16 * l + 16) = 4 * (16 * (l * (con.xres / 2)) + 16 * (con.xres / 2)) := by ring
  rw [h.cols, show fontXsize = 8 from rfl]
  have hcast : (4 * ((16 * (l : Int) + 15) * (con.xres / 2 : Nat) + 4 * (con.xres / 8 : Nat)) : Int) =
      (4 * (16 * (l * (con.xres / 2)) + 15 * (con.xres / 2) + 4 * (con.xres / 8)) : Nat) := by
    push_cast
    ring
  rw [hcast]
  omega

theorem consoleClear_inside (h : Geometry con) : ∀ a ∈ (consoleClear con).2, a.Inside con.size := by
  intro a ha
  obtain ⟨j, hj, rfl⟩ := List.mem_map.1 ha
  have hj' : j < con.xres * con.yres / 2 := List.mem_range.1 hj
  have hsize : 2 * con.xres * con.yres ≤ con.size := Nat.mul_le_mul_right con.yres h.stride
  have hmul : 2 * con.xres * con.yres = 2 * (con.xres * con.yres) := by ring
  show (0 : Int) ≤ 4 * j ∧ 4 * (j : Int) + 4 ≤ con.size
  omega

theorem consoleClearFromCursor_inside (h : Geometry con) (hin : InScreen con)
    (hroom : 4 * ((16 * con.rows + 15) * (con.xres / 2 : Nat) + 4 * con.cols) ≤ con.size) :
    ∀ a ∈ consoleClearFromCursor con, a.Inside con.size := by
  intro a ha
  obtain ⟨hr0, hr1⟩ := hin.row
  have hcols := h.screenSize.cols.1
  rcases List.mem_append.1 ha with ha | ha
  · exact consoleClearLine_inside h hr0 hin.col.1 hin.col.2.le (le_refl _) (h.room hr1 hr0) a ha
  · obtain ⟨i, hi, ha⟩ := List.mem_flatMap.1 ha
    have hi' : i < (con.rows - con.cursorRow).toNat := List.mem_range.1 hi
    by_cases hl : con.cursorRow + 1 + i < con.rows
    · exact consoleClearLine_inside h (by omega) (le_refl _) hcols.le (le_refl _) (h.room hl (by omega)) a ha
    · -- the last round clears the line below the screen
      have he : con.cursorRow + 1 + i = con.rows := by omega
      rw [he] at ha
      exact consoleClearLine_inside h (by omega) (le_refl _) hcols.le (le_refl _) hroom a ha

theorem consoleClearToCursor_inside (h : Geometry con) (hin : InScreen con) : ∀ a ∈ consoleClearToCursor con, a.Inside con.size := by
  intro a ha
  obtain ⟨hr0, hr1⟩ := hin.row
  have hrows := h.screenSize.rows
  rcases List.mem_append.1 ha with ha | ha
  · exact consoleClearLine_inside h hr0 (le_refl _) hin.col.1 hin.col.2.le (h.room hr1 hr0) a ha
  · obtain ⟨i, hi, ha⟩ := List.mem_flatMap.1 ha
    have hi' : i < (con.cursorRow % 2 ^ 32).toNat := List.mem_range.1 hi
    rw [Int.emod_eq_of_lt hr0 (by omega)] at hi'
    rw [s32_of_range (by omega) (by omega)] at ha
    exact consoleClearLine_inside h (by omega) (le_refl _) h.screenSize.cols.1.le (le_refl _)
      (h.room (by omega) (by omega)) a ha

/-- **What keeps the accesses inside**: no escape sequence has a parameter out of range; no tab leaves the screen; no character
moves the cursor below the last row, where the text would move up; `ESC [ J` has room for one text line more than the screen has;
and the colour 39 is not asked for in bold. -/
def consoleStaysInside (con : Console) : ConEvent → Prop
  | .chr c =>
    if c = conChar '\n' ∨ c = 12 then con.cursorRow + 1 < con.rows
    else if c = conChar '\t' then
      con.cursorCol + (if con.cursorCol % tabSize ≠ 0 then con.cursorCol % tabSize else tabSize) < con.cols
    else if c = conChar '\r' ∨ c = 8 then True
    else con.cursorCol + 1 < con.cols ∨ con.cursorRow + 1 < con.rows
  | .esc p₀ p₁ final =>
    ParamsInRange con p₀.toInt p₁.toInt (conCommand final) ∧
      (conCommand final = .clearScreen → p₀ = 0 →
        4 * ((16 * con.rows + 15) * (con.xres / 2 : Nat) + 4 * con.cols) ≤ con.size) ∧
      (conCommand final = .sgr → ¬ (p₀ = 39 ∧ p₁ = 1))

instance (con : Console) : ∀ e, Decidable (consoleStaysInside con e)
  | .chr _ => inferInstanceAs (Decidable (ite _ _ (ite _ _ (ite _ _ _))))
  | .esc _ _ _ => inferInstanceAs (Decidable (_ ∧ (_ → _ → _) ∧ (_ → _)))

theorem consoleSgr_inside (hp : ¬ (p₀ = 39 ∧ p₁ = 1)) (size : Int) : ∀ a ∈ (consoleSgr con p₀ p₁).2, a.Inside size := by
  intro a ha
  unfold consoleSgr at ha
  dsimp only at ha
  split at ha
  · rw [List.mem_singleton] at ha
    subst ha
    show 0 ≤ _ ∧ _
    repeat' split
    all_goals omega
  split at ha
  · rw [List.mem_singleton] at ha
    subst ha
    show 0 ≤ _ ∧ _
    split <;> omega
  · cases ha

theorem consoleEscape_inside (h : Geometry con) (hin : InScreen con) {c : ConCommand}
    (hroom : c = .clearScreen → p₀ = 0 → 4 * ((16 * con.rows + 15) * (con.xres / 2 : Nat) + 4 * con.cols) ≤ con.size)
    (hsgr : c = .sgr → ¬ (p₀ = 39 ∧ p₁ = 1)) : ∀ a ∈ (consoleEscape con p₀ p₁ c).2, a.Inside con.size := by
  obtain ⟨hr0, hr1⟩ := hin.row
  obtain ⟨hc0, hc1⟩ := hin.col
  have hline := h.room hr1 hr0
  cases c with
  | clearScreen =>
    simp only [consoleEscape]
    split
    · rename_i hp
      exact consoleClearFromCursor_inside h hin (hroom rfl hp)
    split
    · exact consoleClearToCursor_inside h hin
    split
    · exact consoleClear_inside h
    · exact fun a ha => by cases ha
  | clearLine =>
    simp only [consoleEscape]
    split
    · exact consoleClearLine_inside h hr0 hc0 hc1.le (le_refl _) hline
    split
    · exact consoleClearLine_inside h hr0 (le_refl _) hc0 hc1.le hline
    split
    · exact consoleClearLine_inside h hr0 (le_refl _) (hc0.trans hc1.le) (le_refl _) hline
    · exact fun a ha => by cases ha
  | sgr => exact consoleSgr_inside (hsgr rfl) con.size
  | up | down | right | left | position | save | load | unknown => exact fun a ha => by cases ha

theorem consoleChar_inside (h : Geometry con) (hin : InScreen con) (c : UInt8) : ∀ a ∈ (consoleChar con c).2, a.Inside con.size := by
  intro a ha
  unfold consoleChar at ha
  dsimp only at ha
  repeat' split at ha
  all_goals first | exact consoleDrawc_inside h hin c a ha | cases ha

theorem consoleChar_stays (hin : InScreen con) (hk : consoleStaysInside con (.chr c)) : InScreen (consoleChar con c).1 := by
  have hsame := consoleChar_same con c
  have hcol0 := hin.col.1
  have hmod : con.cursorCol.tmod tabSize = con.cursorCol % tabSize := Int.tmod_eq_emod_of_nonneg hcol0
  have h := hin.chr (c := c) fun hc => by
    subst hc
    have hk' : con.cursorCol + (if con.cursorCol % tabSize ≠ 0 then con.cursorCol % tabSize else tabSize) < con.cols := hk
    rw [consoleChar_tab]
    dsimp only
    rw [hmod]
    rw [show ((tabSize : Nat) : Int) = 4 from rfl] at hk' ⊢
    split at hk' <;> split <;> omega
  have hr := hin.row.2
  have hrow : (consoleChar con c).1.cursorRow < con.rows := by
    simp only [consoleStaysInside] at hk
    unfold consoleChar
    dsimp only
    split
    · rename_i hn
      rwa [if_pos (.inl hn)] at hk
    split
    · exact hr
    split
    · exact hr
    split
    · rename_i hf
      rwa [if_pos (.inr hf)] at hk
    split
    · exact hr
    split
    · rename_i hn hcr hb hf ht hwrap
      rw [if_neg (not_or.2 ⟨hn, hf⟩), if_neg ht, if_neg (not_or.2 ⟨hcr, hb⟩)] at hk
      dsimp only
      omega
    · exact hr
  exact ⟨⟨h.row.1, hsame.rows ▸ hrow⟩, h.col, h.savedRow, h.savedCol⟩

theorem consoleStep_stays (h : Geometry con) (hin : InScreen con) (hk : consoleStaysInside con e) :
    InScreen (consoleStep con e).1 ∧ ∀ a ∈ (consoleStep con e).2, a.Inside con.size := by
  have hsize := h.screenSize
  -- a cursor on the screen does not scroll
  have hstay : ∀ {con' : Console}, InScreen con' → consoleScroll con' = (con', []) := fun {con'} hin' => by
    unfold consoleScroll
    rw [if_neg (not_le.2 hin'.row.2)]
  cases e with
  | chr c =>
    have hin' := consoleChar_stays hin hk
    have hstep : consoleStep con (.chr c) = ((consoleChar con c).1, (consoleChar con c).2) := by
      have he : consoleStep con (.chr c) = ((consoleScroll (consoleChar con c).1).1,
          (consoleChar con c).2 ++ (consoleScroll (consoleChar con c).1).2) := rfl
      rw [he, hstay hin', List.append_nil]
    rw [hstep]
    exact ⟨hin', consoleChar_inside h hin c⟩
  | esc p₀ p₁ final =>
    obtain ⟨hparams, hroom, hsgr⟩ := hk
    have hin' := hin.escape BitVec.toInt_lt hparams hsize.rows.2 hsize.cols.2
    have hstep : consoleStep con (.esc p₀ p₁ final) = ((consoleEscape con p₀.toInt p₁.toInt (conCommand final)).1,
        (consoleEscape con p₀.toInt p₁.toInt (conCommand final)).2) := by
      have he : consoleStep con (.esc p₀ p₁ final) =
          ((consoleScroll (consoleEscape con p₀.toInt p₁.toInt (conCommand final)).1).1,
            (consoleEscape con p₀.toInt p₁.toInt (conCommand final)).2 ++
              (consoleScroll (consoleEscape con p₀.toInt p₁.toInt (conCommand final)).1).2) := rfl
      rw [he, hstay hin', List.append_nil]
    rw [hstep]
    refine ⟨hin', consoleEscape_inside h hin (fun hc hp => hroom hc (BitVec.eq_of_toInt_eq hp)) fun hc hp => hsgr hc ?_⟩
    exact ⟨BitVec.eq_of_toInt_eq hp.1, BitVec.eq_of_toInt_eq hp.2⟩

theorem consoleTouched_inside : ∀ {con : Console}, Geometry con → InScreen con →
    (consoleSystem.restrict consoleStaysInside).Legal con es → ∀ a ∈ consoleTouched con es, a.Inside con.size := by
  induction es with
  | nil => exact fun _ _ _ a ha => by cases ha
  | cons e es ih =>
    intro con h hin hes a ha
    obtain ⟨hin', hacc⟩ := consoleStep_stays h hin hes.1.2
    have hs := consoleStep_same con e
    have hsz : (consoleStep con e).1.size = con.size := by rw [Console.size, hs.stride, hs.yres]; rfl
    rcases List.mem_append.1 ha with ha | ha
    · exact hacc a ha
    · rw [← hsz]
      exact ih (hs.geometry h) hin' hes.2 a ha

/-- **The console stays inside its buffer.**  For every geometry, and every sequence of calls of `__console_write` on a new console
of which every character and escape sequence meets `consoleStaysInside`: every word that is written lies in the destination buffer,
and so do both ends of every copy, and every index into `color_table` is below 16. -/
theorem console_inside (font : Nat → BitVec 8) (xres yres stride : Nat) (hx : 8 ≤ xres ∧ xres % 2 = 0) (hy : 16 ≤ yres)
    (hstride : 2 * xres ≤ stride) (hfits : stride * yres ≤ 2 ^ 32) (calls : List (List UInt8 × Nat))
    (hcalls : (consoleSystem.restrict consoleStaysInside).Legal (consoleInit font xres yres stride).1
      (calls.flatMap consoleCallEvents)) :
    ∀ a ∈ (consoleInit font xres yres stride).2 ++ (consoleWrites (consoleInit font xres yres stride).1 calls).2,
      a.Inside (stride * yres : Nat) := by
  have h : Geometry (consoleInit font xres yres stride).1 := ⟨hx, hy, hstride, hfits, rfl, rfl⟩
  have hsize := h.screenSize
  have hin : InScreen (consoleInit font xres yres stride).1 := by
    have hrow : (0 : Int) ≤ 0 ∧ 0 < (consoleInit font xres yres stride).1.rows := ⟨le_refl _, hsize.rows.1⟩
    have hcol : (0 : Int) ≤ 0 ∧ 0 < (consoleInit font xres yres stride).1.cols := ⟨le_refl _, hsize.cols.1⟩
    exact ⟨hrow, hcol, hrow, hcol⟩
  intro a ha
  rcases List.mem_append.1 ha with ha | ha
  · exact consoleClear_inside h a ha
  · rw [(consoleWrites_eq calls _).2] at ha
    exact consoleTouched_inside h hin hcalls a ha

/-- A text with a glyph, a cleared line and a colour on a screen of two rows of two columns. -/
def insideSample : List (List UInt8 × Nat) :=
  [(conText ['a', '\n', '\x1b', '[', '1', 'J', '\x1b', '[', '3', '1', ';', '1', 'm'], 13)]

theorem console_inside_sample :
    (consoleSystem.restrict consoleStaysInside).Legal (consoleInit blankFont 16 32 32).1 (insideSample.flatMap consoleCallEvents) ∧
      ∀ a ∈ (consoleInit blankFont 16 32 32).2 ++ (consoleWrites (consoleInit blankFont 16 32 32).1 insideSample).2,
        a.Inside (32 * 32 : Nat) := by
  have hl : (consoleSystem.restrict consoleStaysInside).Legal (consoleInit blankFont 16 32 32).1
      (insideSample.flatMap consoleCallEvents) := by decide +kernel
  exact ⟨hl, console_inside blankFont 16 32 32 (by decide) (by decide) (by decide) (by decide) insideSample hl⟩

/-- **A newline in the last row** copies from beyond the buffer, `ESC [ J` clears a line below the screen, and the bold default
colour is the 24th of a table of 16. -/
theorem console_inside_misses :
    (∃ a ∈ (consoleWrites (consoleInit blankFont 16 32 32).1 [(conText ['\n', '\n'], 2)]).2, ¬ a.Inside (32 * 32 : Nat)) ∧
    (∃ a ∈ (consoleWrites (consoleInit blankFont 16 32 32).1 [(conText ['\x1b', '[', 'J'], 3)]).2, ¬ a.Inside (32 * 32 : Nat)) ∧
    .color 23 ∈ (consoleWrites (consoleInit blankFont 16 32 32).1
      [(conText ['\x1b', '[', '3', '9', ';', '1', 'm'], 7)]).2 := by
  decide +kernel

end Libogc
