import Libogc.Console.ConsoleRuns
import Libogc.Lib.Bytes
/-!
# ConsoleReads — what `__console_write` reads

The loop looks at a character before it looks at the length, and the scan of an escape sequence has no length to look at.  Reads are
offsets from `ptr`, listed next to the function that makes them.
-/
namespace Libogc

open Bytes

/-- The loop over digits at `o`, which reads the character behind each. -/
def conDigitsReads : Nat → List UInt8 → List Nat
  | _, [] => []
  | o, c :: cs => if conDigit c then (o + 1) :: conDigitsReads (o + 1) cs else []

/-- The delimiter that may follow a parameter is skipped. -/
def conSkip (rest : List UInt8) : List UInt8 := if rest.headD 0 = conChar ';' then rest.tail else rest

/-- The loop over parameters at `o`: the digits, the test for a delimiter, and the character behind it. -/
def conParamsReads : Nat → Nat → List UInt8 → List Nat
  | 0, _, _ => []
  | n + 1, o, cs =>
    if conDigit (cs.headD 0) then
      let rest := (conDigits 0 cs).2
      let o' := o + (cs.length - rest.length)
      let o'' := if rest.headD 0 = conChar ';' then o' + 1 else o'
      conDigitsReads o cs ++ o' :: o'' :: conParamsReads n o'' (conSkip rest)
    else []

/-- `__console_parse_escsequence` at `o`: the first character, the parameters, the final character. -/
def consoleScanReads (o : Nat) (pchr : List UInt8) : List Nat :=
  o :: conParamsReads 3 o pchr ++ [o + (consoleScan pchr).2 - 1]

/-- A round of `__console_write` at `o`. -/
def consoleNextReads (o : Nat) (tmp : List UInt8) : List Nat :=
  o :: if tmp.headD 0 = 0x1b then (o + 1) :: if tmp.tail.headD 0 = conChar '[' then consoleScanReads (o + 2) tmp.tail.tail else []
    else []

/-- The loop, with the test that ends it. -/
def consoleReads : Nat → List UInt8 → Nat → Nat → List Nat
  | 0, _, i, _ => [i]
  | fuel + 1, tmp, i, len =>
    i :: if tmp.headD 0 ≠ 0 ∧ i < len then
        consoleNextReads i tmp ++ consoleReads fuel (tmp.drop (consoleNext tmp).2) (i + (consoleNext tmp).2) len
      else []

/-- **The text ends inside the buffer**: whole characters and whole escape sequences, and then a zero. -/
inductive ConEnds : List UInt8 → Prop where
  | nul (rest : List UInt8) : ConEnds (0 :: rest)
  | next {buf : List UInt8} (hchr : buf.headD 0 ≠ 0) (hrest : ConEnds (buf.drop (consoleNext buf).2)) : ConEnds buf

/-- **Nothing behind the buffer** is read, or taken for a part of it. -/
structure ConsoleBounded (con : Console) (buf beyond : List UInt8) : Prop where
  reads : Within (consoleReads (buf.length + 1) (buf ++ beyond) 0 buf.length) buf.length
  returned : ∀ n, (consoleWrite con (buf ++ beyond) buf.length).2.2 = some n → n ≤ buf.length

/-! ## A buffer and what is behind it -/

variable {buf : List UInt8} {o : Nat}

/-- A scan of a buffer with something behind it: it stays inside exactly when it leaves something of the buffer alone, and is then the
scan of the buffer. -/
structure Stays {α : Type} (reads : List Nat) (bound : Nat) (scan scan' : α × List UInt8) (beyond : List UInt8) : Prop where
  within : Within reads bound ↔ scan.2 ≠ []
  same : scan.2 ≠ [] → scan' = (scan.1, scan.2 ++ beyond)

theorem conDigits_stays (beyond : List UInt8) : ∀ (buf : List UInt8) (para : BitVec 32) (o : Nat), buf ≠ [] →
    Stays (conDigitsReads o (buf ++ beyond)) (o + buf.length) (conDigits para buf) (conDigits para (buf ++ beyond)) beyond
  | [], _, _, h => absurd rfl h
  | c :: cs, para, o, _ => by
    rw [List.cons_append, conDigitsReads, conDigits, conDigits]
    by_cases hc : conDigit c
    · rw [if_pos hc, if_pos hc, if_pos hc]
      cases cs with
      | nil =>
        refine ⟨⟨fun h => ?_, fun h => absurd rfl h⟩, fun h => absurd rfl h⟩
        have hlt := (within_cons.mp h).1
        rw [List.length_singleton] at hlt
        exact absurd hlt (Nat.lt_irrefl _)
      | cons d ds =>
        obtain ⟨hin, hsame⟩ :=
          conDigits_stays beyond (d :: ds) (para * 10 + BitVec.ofNat 32 (c - conChar '0').toNat) (o + 1) (List.cons_ne_nil _ _)
        rw [show o + 1 + (d :: ds).length = o + (c :: d :: ds).length by simp only [List.length_cons]; omega] at hin
        refine ⟨within_cons.trans (Iff.trans (and_iff_right ?_) hin), hsame⟩
        rw [List.length_cons, List.length_cons]
        omega
    · rw [if_neg hc, if_neg hc, if_neg hc]
      exact ⟨iff_of_true (within_nil _) (List.cons_ne_nil _ _), fun _ => rfl⟩

theorem conDigits_length (para : BitVec 32) (cs : List UInt8) : (conDigits para cs).2.length ≤ cs.length := by
  induction cs generalizing para with
  | nil => exact Nat.le_refl _
  | cons c cs ih =>
    rw [conDigits]
    split
    · exact (ih _).trans (Nat.le_succ _)
    · exact Nat.le_refl _

theorem conParams_succ (n : Nat) (cs : List UInt8) : conParams (n + 1) cs =
    if conDigit (cs.headD 0) then
      ((conDigits 0 cs).1 :: (conParams n (conSkip (conDigits 0 cs).2)).1, (conParams n (conSkip (conDigits 0 cs).2)).2)
    else ([], cs) := rfl

theorem conParams_nil (n : Nat) : conParams n [] = ([], []) := by
  cases n <;> rfl

variable {rest : List UInt8}

theorem headD_append (h : rest ≠ []) (beyond : List UInt8) : (rest ++ beyond).headD 0 = rest.headD 0 := by
  cases rest with
  | nil => exact absurd rfl h
  | cons c cs => rfl

theorem conSkip_append (h : rest ≠ []) (beyond : List UInt8) : conSkip (rest ++ beyond) = conSkip rest ++ beyond := by
  unfold conSkip
  rw [headD_append h]
  split
  · exact List.tail_append_of_ne_nil h
  · rfl

theorem conSkip_length (h : rest ≠ []) (o : Nat) :
    (if rest.headD 0 = conChar ';' then o + 1 else o) + (conSkip rest).length = o + rest.length := by
  have hpos := List.length_pos_of_ne_nil h
  unfold conSkip
  split
  · rw [List.length_tail]
    omega
  · rfl

/-- What stands behind the digits of a parameter: a delimiter that may be there, and the parameters behind it. -/
theorem conParams_next {beyond : List UInt8} {n : Nat} (para : BitVec 32) (o : Nat) (h : rest ≠ [])
    (hmore : ∀ {buf : List UInt8} (o : Nat), buf ≠ [] → Stays (conParamsReads n o (buf ++ beyond)) (o + buf.length) (conParams n buf) (conParams n (buf ++ beyond)) beyond) :
    Stays (o :: (if rest.headD 0 = conChar ';' then o + 1 else o) ::
        conParamsReads n (if rest.headD 0 = conChar ';' then o + 1 else o) (conSkip rest ++ beyond)) (o + rest.length)
      (para :: (conParams n (conSkip rest)).1, (conParams n (conSkip rest)).2)
      (para :: (conParams n (conSkip rest ++ beyond)).1, (conParams n (conSkip rest ++ beyond)).2) beyond := by
  have hpos := List.length_pos_of_ne_nil h
  have hskip := conSkip_length h o
  generalize (if rest.headD 0 = conChar ';' then o + 1 else o) = o' at hskip ⊢
  have hsplit : Within (o :: o' :: conParamsReads n o' (conSkip rest ++ beyond)) (o + rest.length) ↔
      o' < o + rest.length ∧ Within (conParamsReads n o' (conSkip rest ++ beyond)) (o + rest.length) := by
    rw [within_cons, within_cons]
    exact and_iff_right (by omega)
  by_cases hend : conSkip rest = []
  · -- the delimiter is the last of the buffer
    have hnil : (conParams n (conSkip rest)).2 = [] := by
      rw [hend]
      exact congrArg Prod.snd (conParams_nil n)
    rw [hend, List.length_nil] at hskip
    refine ⟨hsplit.trans (iff_of_false (fun hw => ?_) (not_not_intro hnil)), fun hne => absurd hnil hne⟩
    exact absurd hw.1 (by omega)
  · obtain ⟨hin, hsame⟩ := hmore o' hend
    have hpos' := List.length_pos_of_ne_nil hend
    rw [hskip] at hin
    refine ⟨hsplit.trans (Iff.trans (and_iff_right (by omega)) hin), fun hne => ?_⟩
    rw [hsame hne]

theorem conParams_stays (beyond : List UInt8) (n : Nat) : ∀ {buf : List UInt8} (o : Nat), buf ≠ [] →
    Stays (conParamsReads n o (buf ++ beyond)) (o + buf.length) (conParams n buf) (conParams n (buf ++ beyond)) beyond := by
  induction n with
  | zero => exact fun o h => ⟨iff_of_true (within_nil _) h, fun _ => rfl⟩
  | succ n ih =>
    intro buf o h
    rw [conParamsReads, conParams_succ, conParams_succ, headD_append h]
    by_cases hc : conDigit (buf.headD 0)
    · rw [if_pos hc, if_pos hc, if_pos hc]
      obtain ⟨hin, hsame⟩ := conDigits_stays beyond buf 0 o h
      have hle := conDigits_length 0 buf
      by_cases hrest : (conDigits 0 buf).2 = []
      · -- digits up to the end of the buffer
        have hnil : (conParams n (conSkip (conDigits 0 buf).2)).2 = [] := by
          rw [hrest]
          exact congrArg Prod.snd (conParams_nil n)
        exact ⟨iff_of_false (fun hw => hin.mp (within_append.mp hw).1 hrest) (not_not_intro hnil), fun hne => absurd hnil hne⟩
      · have hpar : (buf ++ beyond).length - ((conDigits 0 buf).2 ++ beyond).length = buf.length - (conDigits 0 buf).2.length := by
          rw [List.length_append, List.length_append]
          omega
        obtain ⟨hin', hsame'⟩ := conParams_next (conDigits 0 buf).1 (o + (buf.length - (conDigits 0 buf).2.length)) hrest ih
        rw [show o + (buf.length - (conDigits 0 buf).2.length) + (conDigits 0 buf).2.length = o + buf.length by omega] at hin'
        rw [hsame hrest]
        dsimp only
        rw [conSkip_append hrest, headD_append hrest, hpar]
        exact ⟨within_append.trans ((and_iff_right (hin.mpr hrest)).trans hin'), hsame'⟩
    · rw [if_neg hc, if_neg hc, if_neg hc]
      exact ⟨iff_of_true (within_nil _) h, fun _ => rfl⟩

theorem conParams_length (n : Nat) : ∀ cs : List UInt8, (conParams n cs).2.length ≤ cs.length := by
  induction n with
  | zero => exact fun cs => Nat.le_refl _
  | succ n ih =>
    intro cs
    rw [conParams_succ]
    split
    · have hskip : (conSkip (conDigits 0 cs).2).length ≤ (conDigits 0 cs).2.length := by
        unfold conSkip
        split
        · rw [List.length_tail]
          omega
        · exact Nat.le_refl _
      exact ((ih _).trans hskip).trans (conDigits_length 0 cs)
    · exact Nat.le_refl _

/-! ## Escape sequences and characters -/

theorem consoleScan_eq (pchr : List UInt8) : consoleScan pchr =
    (.esc ((conParams 3 pchr).1.getD 0 0) ((conParams 3 pchr).1.getD 1 0) ((conParams 3 pchr).2.headD 0),
      pchr.length - (conParams 3 pchr).2.length + 1) := rfl

/-- An escape sequence is read inside the buffer exactly when it ends there. -/
theorem consoleScan_within (buf beyond : List UInt8) (o : Nat) :
    (Within (consoleScanReads o (buf ++ beyond)) (o + buf.length) ↔ (consoleScan buf).2 ≤ buf.length) ∧
      ((consoleScan buf).2 ≤ buf.length → consoleScan (buf ++ beyond) = consoleScan buf) := by
  by_cases h : buf = []
  · subst h
    have hk : ¬ (consoleScan []).2 ≤ ([] : List UInt8).length := by decide
    exact ⟨iff_of_false (fun hw => Nat.lt_irrefl _ (within_cons.mp (within_append.mp hw).1).1) hk, fun hle => absurd hle hk⟩
  · obtain ⟨hin, hsame⟩ := conParams_stays beyond 3 o h
    have hle := conParams_length 3 buf
    have hpos := List.length_pos_of_ne_nil h
    have hk : (consoleScan buf).2 ≤ buf.length ↔ (conParams 3 buf).2 ≠ [] := by
      rw [consoleScan_eq, ← List.length_pos_iff]
      dsimp only
      omega
    have heq : (conParams 3 buf).2 ≠ [] → consoleScan (buf ++ beyond) = consoleScan buf := fun hne => by
      rw [consoleScan_eq, consoleScan_eq, hsame hne]
      dsimp only
      rw [headD_append hne, List.length_append, List.length_append, Nat.add_sub_add_right]
    refine ⟨?_, fun h => heq (hk.mp h)⟩
    unfold consoleScanReads
    rw [within_append, within_cons, hin, hk]
    refine ⟨fun hw => hw.1.2, fun hne => ⟨⟨by omega, hne⟩, within_cons.mpr ⟨?_, within_nil _⟩⟩⟩
    rw [heq hne]
    have hle' := hk.mpr hne
    omega

theorem consoleNext_chr {tmp : List UInt8} (h : ¬ (tmp.headD 0 = 0x1b ∧ tmp.tail.headD 0 = conChar '[')) :
    consoleNext tmp = (.chr (tmp.headD 0), 1) := if_neg h

theorem consoleNext_esc (tmp : List UInt8) (h : tmp.headD 0 = 0x1b ∧ tmp.tail.headD 0 = conChar '[') :
    consoleNext tmp = ((consoleScan tmp.tail.tail).1, 2 + (consoleScan tmp.tail.tail).2) := if_pos h

/-- A round stays inside the buffer, and leaves something of it for the next, exactly when it does so in the buffer alone. -/
theorem consoleNext_within (beyond : List UInt8) (o : Nat) (h : buf ≠ []) :
    (Within (consoleNextReads o (buf ++ beyond)) (o + buf.length) ∧ (consoleNext (buf ++ beyond)).2 < buf.length ↔
        (consoleNext buf).2 < buf.length) ∧
      ((consoleNext buf).2 < buf.length → consoleNext (buf ++ beyond) = consoleNext buf) := by
  obtain ⟨c, cs, rfl⟩ := List.exists_cons_of_ne_nil h
  have ho : o < o + (c :: cs).length := Nat.lt_add_of_pos_right (Nat.zero_lt_succ _)
  unfold consoleNextReads
  rw [List.cons_append, List.headD_cons, List.tail_cons, within_cons]
  by_cases hc : c = 0x1b
  · rw [if_pos hc]
    cases cs with
    | nil =>
      -- the escape character is the last of the buffer
      have hnext : consoleNext [c] = (.chr c, 1) := consoleNext_chr fun hh => absurd hh.2 (show ¬ (0 : UInt8) = conChar '[' by decide)
      have hlt : ¬ (consoleNext [c]).2 < [c].length := by
        rw [hnext]
        exact Nat.lt_irrefl 1
      refine ⟨iff_of_false (fun hw => ?_) hlt, fun hh => absurd hh hlt⟩
      exact Nat.lt_irrefl _ (within_cons.mp hw.1.2).1
    | cons d ds =>
      rw [List.cons_append, List.headD_cons, List.tail_cons]
      have ho' : o + 1 < o + (c :: d :: ds).length := by simp only [List.length_cons]; omega
      by_cases hd : d = conChar '['
      · obtain ⟨hin, hsame⟩ := consoleScan_within ds beyond (o + 2)
        rw [if_pos hd, consoleNext_esc (c :: d :: ds) ⟨hc, hd⟩, consoleNext_esc (c :: d :: (ds ++ beyond)) ⟨hc, hd⟩,
          within_cons, show o + (c :: d :: ds).length = o + 2 + ds.length by simp only [List.length_cons]; omega, hin]
        simp only [List.tail_cons, List.length_cons]
        refine ⟨⟨fun hw => ?_, fun hlt => ⟨⟨by omega, by omega, by omega⟩, ?_⟩⟩, fun hlt => ?_⟩
        · rw [hsame hw.1.2.2] at hw
          exact hw.2
        · rw [hsame (by omega)]
          exact hlt
        · rw [hsame (by omega)]
      · have hne : ∀ rest : List UInt8, ¬ ((c :: d :: rest).headD 0 = 0x1b ∧ (c :: d :: rest).tail.headD 0 = conChar '[') :=
          fun _ hh => hd hh.2
        rw [if_neg hd, consoleNext_chr (hne ds), consoleNext_chr (hne (ds ++ beyond))]
        exact ⟨and_iff_right ⟨ho, within_cons.mpr ⟨ho', within_nil _⟩⟩, fun _ => rfl⟩
  · have hne : ∀ rest : List UInt8, ¬ ((c :: rest).headD 0 = 0x1b ∧ (c :: rest).tail.headD 0 = conChar '[') := fun _ hh => hc hh.1
    rw [if_neg hc, consoleNext_chr (hne cs), consoleNext_chr (hne (cs ++ beyond))]
    exact ⟨and_iff_right ⟨ho, within_nil _⟩, fun _ => rfl⟩

/-! ## The loop -/

theorem ConEnds.ne_nil (h : ConEnds buf) : buf ≠ [] := by
  cases h with
  | nul rest => exact List.cons_ne_nil _ _
  | next hchr _ =>
    rintro rfl
    exact hchr rfl

/-- A text that goes on has its end behind the next character or sequence. -/
theorem ConEnds.drop (h : ConEnds buf) (hchr : buf.headD 0 ≠ 0) :
    (consoleNext buf).2 < buf.length ∧ ConEnds (buf.drop (consoleNext buf).2) := by
  cases h with
  | nul rest => exact absurd rfl hchr
  | next _ hrest =>
    have hpos := List.length_pos_of_ne_nil hrest.ne_nil
    rw [List.length_drop] at hpos
    exact ⟨by omega, hrest⟩

theorem consoleReads_first (fuel : Nat) (tmp : List UInt8) (i len : Nat) : i ∈ consoleReads fuel tmp i len := by
  cases fuel with
  | zero => exact List.mem_cons_self
  | succ fuel => exact List.mem_cons_self

theorem consoleReads_within (beyond : List UInt8) (fuel : Nat) : ∀ (buf : List UInt8) (o : Nat), buf.length ≤ fuel →
    (Within (consoleReads (fuel + 1) (buf ++ beyond) o (o + buf.length)) (o + buf.length) ↔ ConEnds buf) := by
  induction fuel with
  | zero =>
    intro buf o hlen
    obtain rfl : buf = [] := List.eq_nil_of_length_eq_zero (by omega)
    exact iff_of_false (fun hw => Nat.lt_irrefl _ (hw o (consoleReads_first ..))) fun he => he.ne_nil rfl
  | succ fuel ih =>
    intro buf o hlen
    by_cases h : buf = []
    · subst h
      exact iff_of_false (fun hw => Nat.lt_irrefl _ (hw o (consoleReads_first ..))) fun he => he.ne_nil rfl
    · have hpos := List.length_pos_of_ne_nil h
      have ho : o < o + buf.length := by omega
      rw [consoleReads, within_cons, headD_append h]
      by_cases hchr : buf.headD 0 = 0
      · rw [if_neg fun hh => hh.1 hchr]
        refine iff_of_true ⟨ho, within_nil _⟩ ?_
        obtain ⟨c, cs, rfl⟩ := List.exists_cons_of_ne_nil h
        rw [show c = 0 from hchr]
        exact .nul cs
      · obtain ⟨hin, hsame⟩ := consoleNext_within beyond o h
        rw [if_pos ⟨hchr, ho⟩, within_append]
        have hk := consoleNext_pos buf
        have hrest : (consoleNext buf).2 < buf.length →
            (Within (consoleReads (fuel + 1) ((buf ++ beyond).drop (consoleNext buf).2) (o + (consoleNext buf).2) (o + buf.length))
              (o + buf.length) ↔ ConEnds (buf.drop (consoleNext buf).2)) := fun hlt => by
          have hi := ih (buf.drop (consoleNext buf).2) (o + (consoleNext buf).2) (by rw [List.length_drop]; omega)
          rw [List.length_drop, show o + (consoleNext buf).2 + (buf.length - (consoleNext buf).2) = o + buf.length by omega] at hi
          rw [List.drop_append_of_le_length (by omega)]
          exact hi
        constructor
        · rintro ⟨-, hw, hw'⟩
          have hlt := hw' _ (consoleReads_first ..)
          have hbuf := hin.mp ⟨hw, by omega⟩
          rw [hsame hbuf] at hw'
          exact .next hchr ((hrest hbuf).mp hw')
        · intro he
          obtain ⟨hlt, hends⟩ := he.drop hchr
          refine ⟨ho, (hin.mpr hlt).1, ?_⟩
          rw [hsame hlt]
          exact (hrest hlt).mpr hends

theorem consoleLoop_returned (beyond : List UInt8) (fuel : Nat) : ∀ (con : Console) (buf : List UInt8) (o : Nat), ConEnds buf →
    (consoleLoop fuel con (buf ++ beyond) o (o + buf.length)).2.2 ≤ o + buf.length := by
  induction fuel with
  | zero => exact fun _ _ _ _ => Nat.le_add_right _ _
  | succ fuel ih =>
    intro con buf o he
    rw [consoleLoop_succ, headD_append he.ne_nil]
    split
    · rename_i hgo
      obtain ⟨hlt, hends⟩ := he.drop hgo.1
      have hi := ih (consoleStep con (consoleNext buf).1).1 _ (o + (consoleNext buf).2) hends
      rw [List.length_drop, show o + (consoleNext buf).2 + (buf.length - (consoleNext buf).2) = o + buf.length by omega] at hi
      rw [((consoleNext_within beyond o he.ne_nil).2 hlt), List.drop_append_of_le_length (by omega)]
      exact hi
    · exact Nat.le_add_right _ _

/-- **`__console_write` stays inside the buffer exactly when the text ends there**: it does not come to the end of the buffer, in an
escape sequence or between two characters. -/
theorem console_bounded (con : Console) (buf beyond : List UInt8) (hlen : 1 ≤ buf.length) :
    ConsoleBounded con buf beyond ↔ ConEnds buf := by
  have hreads := consoleReads_within beyond buf.length buf 0 (Nat.le_refl _)
  rw [Nat.zero_add] at hreads
  refine ⟨fun h => hreads.mp h.reads, fun he => ⟨hreads.mpr he, fun n hn => ?_⟩⟩
  have hret := consoleLoop_returned beyond buf.length con buf 0 he
  unfold consoleWrite at hn
  rw [if_neg (by omega)] at hn
  rw [Nat.zero_add] at hret
  obtain rfl := Option.some.inj hn
  exact hret

/-- "A", an escape sequence, and a zero. -/
theorem console_bounded_sample :
    ConsoleBounded (consoleInit blankFont 8 16 16).1 (conText ['A', Char.ofNat 27, '[', '2', 'J', Char.ofNat 0]) [] ↔
      ConEnds (conText ['A', Char.ofNat 27, '[', '2', 'J', Char.ofNat 0]) :=
  console_bounded _ _ _ (by decide)

/-- "A" alone: the loop reads `ptr[1]` to see that it is behind the buffer. -/
theorem console_bounded_misses : ¬ ConsoleBounded (consoleInit blankFont 8 16 16).1 (conText ['A']) [] := fun h =>
  absurd (h.reads 1 (by decide)) (by decide)

end Libogc
