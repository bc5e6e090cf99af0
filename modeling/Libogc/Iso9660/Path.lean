import Libogc.Iso9660.PathTable
import Mathlib.Data.List.DropRight
/-!
# Path — the paths of `iso9660.c`

`entry_from_path` takes the device name and the trailing separators off a path, splits the rest at its last separator, and has
`path_entry_from_path` look for the directory.  A string is what stands before the zero that ends it.
-/
namespace Libogc

open Bytes Rose

/-- '/' -/
def DIR_SEPARATOR : UInt8 := 47

def tolower (c : UInt8) : UInt8 := if 65 ≤ c ∧ c ≤ 90 then c + 32 else c

def strncasecmp : List UInt8 → List UInt8 → Nat → Int
  | _, _, 0 => 0
  | s, t, n + 1 =>
    if tolower (s.headD 0) ≠ tolower (t.headD 0) then (tolower (s.headD 0)).toNat - (tolower (t.headD 0)).toNat
    else if s.headD 0 = 0 then 0
    else strncasecmp s.tail t.tail n

/-! ## `path_entry_from_path` -/

/-- The variables of `path_entry_from_path`; `pathPosition` is what is left of the path. -/
structure IsoPathScan where
  found : Bool
  notFound : Bool
  entry : IsoPathEntry
  dir : IsoPathEntry
  pathPosition : List UInt8

/-- The loop that skips separators. -/
def isoSkipSeparators (path : List UInt8) : List UInt8 := path.dropWhile (· = DIR_SEPARATOR)

def IsoPathScan.start (root : IsoPathEntry) (path : List UInt8) : IsoPathScan where
  found := isoSkipSeparators path = []
  notFound := false
  entry := root
  dir := root
  pathPosition := isoSkipSeparators path

/-- The test of a child. -/
def IsoPathScan.isChild (s : IsoPathScan) (dirnameLength : Nat) (child : IsoPathEntry) : Bool :=
  dirnameLength = min (cstr child.label.entry.name).length ISO_MAXPATHLEN ∧
    strncasecmp s.pathPosition child.label.entry.name dirnameLength = 0

/-- The loop over the children, from `childIndex` on. -/
def IsoPathScan.scanChildren (dirnameLength : Nat) : List IsoPathEntry → Nat → IsoPathScan → IsoPathScan × Nat
  | [], childIndex, s => (s, childIndex)
  | child :: rest, childIndex, s =>
    if s.found || s.notFound then (s, childIndex)
    else
      let found := s.isChild dirnameLength child
      scanChildren dirnameLength rest (if found then childIndex else childIndex + 1) { s with entry := child, found := found }

/-- One round of the loop; `none` where it returns from the middle. -/
def IsoPathScan.round (s : IsoPathScan) : Option IsoPathScan :=
  let nextPathPosition := strchr s.pathPosition DIR_SEPARATOR
  let dirnameLength :=
    match nextPathPosition with
    | some next => s.pathPosition.length - next.length
    | none => s.pathPosition.length
  if ISO_MAXPATHLEN ≤ dirnameLength then none
  else
    let (s, childIndex) := s.scanChildren dirnameLength s.dir.children 0
    if s.dir.children.length ≤ childIndex then some { s with notFound := true, found := false }
    else
      match nextPathPosition with
      | none => some { s with found := true }
      | some next =>
        let pathPosition := isoSkipSeparators next
        some { s with dir := s.entry, pathPosition := pathPosition, found := pathPosition = [] }

/-- `n` rounds at most. -/
def IsoPathScan.run : Nat → IsoPathScan → Option (Option IsoPathEntry)
  | 0, _ => none
  | n + 1, s =>
    if s.found || s.notFound then some (if s.found then some s.entry else none)
    else
      match s.round with
      | none => some none
      | some s => s.run n

/-- The entry that is copied, when it returns true. -/
def isoPathEntryFromPath (root : IsoPathEntry) (path : List UInt8) : Option (Option IsoPathEntry) :=
  (IsoPathScan.start root path).run (path.length + 1)

/-- **What a path means**: the names between its separators, without the empty ones. -/
def isoComponents (path : List UInt8) : List (List UInt8) := (path.splitOnP (· = DIR_SEPARATOR)).filter (· ≠ [])

/-- Names are the same in either case. -/
def isoSameName (component : List UInt8) (child : IsoPathEntry) : Bool :=
  component.map tolower = (cstr child.label.entry.name).map tolower

/-- Down a directory for each name. -/
def isoFollow : List (List UInt8) → IsoPathEntry → Option IsoPathEntry
  | [], dir => some dir
  | c :: cs, dir => if ISO_MAXPATHLEN ≤ c.length then none else (dir.children.find? (isoSameName c)).bind (isoFollow cs)

/-! ## Strings -/

theorem tolower_eq_zero {c : UInt8} : tolower c = 0 ↔ c = 0 := by
  unfold tolower
  split
  · rename_i h
    refine ⟨fun h0 => ?_, fun h0 => ?_⟩
    · have h0 := congrArg UInt8.toNat h0
      have h1 := UInt8.le_iff_toNat_le.mp h.1
      have h2 := UInt8.le_iff_toNat_le.mp h.2
      rw [UInt8.toNat_add] at h0
      simp at h0 h1 h2
      omega
    · exact absurd h.1 (by rw [h0]; decide)
  · exact Iff.rfl

theorem tolower_sub_ne {a b : UInt8} (h : tolower a ≠ tolower b) : ((tolower a).toNat : Int) - (tolower b).toNat ≠ 0 := by
  intro h0
  exact h (UInt8.toNat_inj.mp (by omega))

theorem strncasecmp_eq_zero : ∀ {n : Nat} {s t : List UInt8}, n ≤ s.length → n ≤ (cstr t).length →
    (strncasecmp s t n = 0 ↔ (s.take n).map tolower = (t.take n).map tolower)
  | 0, _, _, _, _ => by simp [strncasecmp]
  | n + 1, [], _, hs, _ => absurd hs (by simp)
  | n + 1, _ :: _, [], _, ht => absurd ht (by simp [cstr])
  | n + 1, a :: s, b :: t, hs, ht => by
    have hb : b ≠ 0 := by
      rintro rfl
      simp [cstr] at ht
    have ht' : n ≤ (cstr t).length := by
      unfold cstr at ht
      rw [List.takeWhile_cons_of_pos (by simpa using hb)] at ht
      exact Nat.le_of_succ_le_succ ht
    rw [strncasecmp, List.headD_cons, List.headD_cons, List.take_succ_cons, List.take_succ_cons, List.map_cons, List.map_cons]
    by_cases hab : tolower a = tolower b
    · have ha : a ≠ 0 := fun h0 => hb (tolower_eq_zero.mp (hab ▸ tolower_eq_zero.mpr h0))
      rw [if_neg (not_not_intro hab), if_neg ha, List.tail_cons, List.tail_cons,
        strncasecmp_eq_zero (Nat.le_of_succ_le_succ hs) ht', hab]
      exact (List.cons_inj_right _).symm
    · rw [if_pos hab]
      exact ⟨fun h0 => absurd h0 (tolower_sub_ne hab), fun he => absurd (List.cons.inj he).1 hab⟩

/-! ## The components of a path -/

theorem isoComponents_sep (path : List UInt8) : isoComponents (DIR_SEPARATOR :: path) = isoComponents path := by
  unfold isoComponents
  rw [List.splitOnP_cons_eq_if_modifyHead, if_pos (by simp)]
  exact List.filter_cons_of_neg (by simp)

theorem isoComponents_skip (path : List UInt8) : isoComponents (isoSkipSeparators path) = isoComponents path := by
  induction path with
  | nil => rfl
  | cons c path ih =>
    unfold isoSkipSeparators at *
    by_cases hc : c = DIR_SEPARATOR
    · rw [List.dropWhile_cons_of_pos (by simpa using hc), ih, hc, isoComponents_sep]
    · rw [List.dropWhile_cons_of_neg (by simpa using hc)]

section Component
variable {c : List UInt8}

theorem no_separator (hc : DIR_SEPARATOR ∉ c) : ∀ x ∈ c, decide (x = DIR_SEPARATOR) = false := fun _ hx =>
  decide_eq_false fun he => hc (he ▸ hx)

theorem isoComponents_one (hc : DIR_SEPARATOR ∉ c) (hne : c ≠ []) : isoComponents c = [c] := by
  unfold isoComponents
  rw [List.splitOnP_eq_singleton (no_separator hc)]
  exact List.filter_cons_of_pos (by simpa using hne)

theorem isoComponents_first (hc : DIR_SEPARATOR ∉ c) (hne : c ≠ []) (path : List UInt8) :
    isoComponents (c ++ DIR_SEPARATOR :: path) = c :: isoComponents path := by
  unfold isoComponents
  rw [List.splitOnP_append_cons_of_forall_mem (no_separator hc) _ (by simp)]
  exact List.filter_cons_of_pos (by simpa using hne)

theorem component_cases {path : List UInt8} (hne : path ≠ []) (hskip : isoSkipSeparators path = path) :
    ∃ c, c ≠ [] ∧ DIR_SEPARATOR ∉ c ∧ (path = c ∨ ∃ rest, path = c ++ DIR_SEPARATOR :: rest) := by
  by_cases hm : DIR_SEPARATOR ∈ path
  · obtain ⟨c, rest, rfl, hc⟩ := List.eq_append_cons_of_mem hm
    refine ⟨c, ?_, hc, .inr ⟨rest, rfl⟩⟩
    rintro rfl
    have hlen := congrArg List.length hskip
    unfold isoSkipSeparators at hlen
    rw [List.nil_append, List.dropWhile_cons_of_pos (by simp), List.length_cons] at hlen
    have hle := (List.dropWhile_sublist (l := rest) (· = DIR_SEPARATOR)).length_le
    omega
  · exact ⟨path, hne, hm, .inl rfl⟩

/-! ## The search -/

variable {s : IsoPathScan} {root : IsoPathEntry} {path : List UInt8}

theorem IsoPathScan.isChild_eq {rest : List UInt8} (hpos : s.pathPosition = c ++ rest) (hc : c.length < ISO_MAXPATHLEN)
    (child : IsoPathEntry) : s.isChild c.length child = isoSameName c child := by
  unfold IsoPathScan.isChild isoSameName
  rw [hpos, decide_eq_decide]
  by_cases hl : c.length = (cstr child.label.entry.name).length
  · rw [strncasecmp_eq_zero (by simp) (Nat.le_of_eq hl), List.take_left, hl, cstr_take]
    exact and_iff_right (by omega)
  · refine ⟨fun h => by omega, fun h => absurd (congrArg List.length h) ?_⟩
    rw [List.length_map, List.length_map]
    exact hl

theorem IsoPathScan.scanChildren_found (len : Nat) (children : List IsoPathEntry) (k : Nat) (hs : s.found = true) :
    s.scanChildren len children k = (s, k) := by
  cases children with
  | nil => rfl
  | cons child rest =>
    rw [IsoPathScan.scanChildren, hs]
    rfl

theorem IsoPathScan.scanChildren_spec {rest : List UInt8} (hc : c.length < ISO_MAXPATHLEN) (children : List IsoPathEntry) :
    ∀ {s : IsoPathScan} (k : Nat), s.pathPosition = c ++ rest → s.found = false → s.notFound = false →
      ∃ entry j, s.scanChildren c.length children k =
          ({ s with entry := entry, found := (children.find? (isoSameName c)).isSome }, k + j) ∧
        (children.find? (isoSameName c) = none → j = children.length) ∧
        ∀ e, children.find? (isoSameName c) = some e → entry = e ∧ j < children.length := by
  induction children with
  | nil =>
    intro s k _ hf _
    refine ⟨s.entry, 0, ?_, fun _ => rfl, fun e he => by cases he⟩
    rw [IsoPathScan.scanChildren, List.find?_nil, Option.isSome_none, ← hf]
    rfl
  | cons child more ih =>
    intro s k hpos hf hn
    rw [IsoPathScan.scanChildren, hf, hn, s.isChild_eq hpos hc]
    by_cases hsame : isoSameName c child = true
    · refine ⟨child, 0, ?_, fun h => ?_, fun e he => ?_⟩
      · rw [List.find?_cons_of_pos hsame, hsame]
        exact IsoPathScan.scanChildren_found _ _ _ rfl
      · rw [List.find?_cons_of_pos hsame] at h
        cases h
      · rw [List.find?_cons_of_pos hsame] at he
        exact ⟨Option.some.inj he, Nat.zero_lt_succ _⟩
    · have hfalse : isoSameName c child = false := by simpa using hsame
      obtain ⟨entry, j, hj, hnone, hsome⟩ := ih (s := { s with entry := child, found := false }) (k + 1) hpos rfl hn
      rw [List.find?_cons_of_neg hsame, hfalse]
      refine ⟨entry, j + 1, ?_, fun h => congrArg (· + 1) (hnone h), fun e he => ?_⟩
      · dsimp only at hj
        rw [hn] at hj
        rw [show k + (j + 1) = k + 1 + j by omega]
        exact hj
      · exact ⟨(hsome e he).1, Nat.succ_lt_succ (hsome e he).2⟩

theorem isoSkipSeparators_skip (path : List UInt8) : isoSkipSeparators (isoSkipSeparators path) = isoSkipSeparators path :=
  List.dropWhile_idempotent ..

/-- **Where a round begins**: at a component, or at the end. -/
structure IsoPathScan.AtComponent (s : IsoPathScan) : Prop where
  found : s.found = decide (s.pathPosition = [])
  going : s.notFound = false
  entry : s.entry = s.dir
  skipped : isoSkipSeparators s.pathPosition = s.pathPosition

theorem IsoPathScan.round_last (hc : DIR_SEPARATOR ∉ c) (hpos : s.pathPosition = c) (hf : s.found = false)
    (hn : s.notFound = false) (hlen : c.length < ISO_MAXPATHLEN) :
    ∃ t, s.round = some t ∧ (t.found || t.notFound) = true ∧
      (if t.found then some t.entry else none) = s.dir.children.find? (isoSameName c) := by
  have hpos' : s.pathPosition = c ++ [] := by rw [List.append_nil, hpos]
  obtain ⟨entry, j, hj, hnone, hsome⟩ := IsoPathScan.scanChildren_spec hlen s.dir.children 0 hpos' hf hn
  unfold IsoPathScan.round
  rw [hpos, strchr_none hc]
  dsimp only
  rw [if_neg (Nat.not_le.mpr hlen), hj]
  dsimp only
  cases hfind : s.dir.children.find? (isoSameName c) with
  | none =>
    rw [if_pos (by rw [hnone hfind]; omega)]
    exact ⟨_, rfl, Bool.or_true _, rfl⟩
  | some e =>
    obtain ⟨rfl, hlt⟩ := hsome e hfind
    rw [if_neg (by omega)]
    exact ⟨_, rfl, rfl, rfl⟩

theorem IsoPathScan.round_next {rest : List UInt8} (hc : DIR_SEPARATOR ∉ c) (hpos : s.pathPosition = c ++ DIR_SEPARATOR :: rest)
    (hf : s.found = false) (hn : s.notFound = false) (hlen : c.length < ISO_MAXPATHLEN) :
    ∃ t, s.round = some t ∧
      match s.dir.children.find? (isoSameName c) with
      | none => t.found = false ∧ t.notFound = true
      | some e => t.AtComponent ∧ t.dir = e ∧ t.pathPosition = isoSkipSeparators rest := by
  obtain ⟨entry, j, hj, hnone, hsome⟩ := IsoPathScan.scanChildren_spec hlen s.dir.children (s := s) 0 hpos hf hn
  have hdirname : (c ++ DIR_SEPARATOR :: rest).length - (DIR_SEPARATOR :: rest).length = c.length := by
    rw [List.length_append]
    omega
  have hskip : isoSkipSeparators (DIR_SEPARATOR :: rest) = isoSkipSeparators rest := List.dropWhile_cons_of_pos (by simp)
  unfold IsoPathScan.round
  rw [hpos, strchr_some hc]
  simp only [hdirname]
  rw [if_neg (Nat.not_le.mpr hlen), hj, hskip]
  dsimp only
  cases hfind : s.dir.children.find? (isoSameName c) with
  | none =>
    rw [if_pos (by rw [hnone hfind]; omega)]
    exact ⟨_, rfl, rfl, rfl⟩
  | some e =>
    obtain ⟨rfl, hlt⟩ := hsome e hfind
    rw [if_neg (by omega)]
    exact ⟨_, rfl, ⟨rfl, hn, rfl, isoSkipSeparators_skip rest⟩, rfl, rfl⟩

theorem IsoPathScan.round_long (hc : DIR_SEPARATOR ∉ c)
    (hpos : s.pathPosition = c ∨ ∃ rest, s.pathPosition = c ++ DIR_SEPARATOR :: rest) (hlen : ISO_MAXPATHLEN ≤ c.length) :
    s.round = none := by
  unfold IsoPathScan.round
  rcases hpos with hpos | ⟨rest, hpos⟩
  · rw [hpos, strchr_none hc]
    exact if_pos hlen
  · have hdirname : (c ++ DIR_SEPARATOR :: rest).length - (DIR_SEPARATOR :: rest).length = c.length := by
      rw [List.length_append]
      omega
    rw [hpos, strchr_some hc]
    exact if_pos (hlen.trans_eq hdirname.symm)

end Component

/-- The loop, from a component on.  The induction is on the rounds: each one takes a component off the path. -/
theorem IsoPathScan.run_spec (n : Nat) : ∀ {s : IsoPathScan}, s.AtComponent → s.pathPosition.length < n →
    s.run n = some (isoFollow (isoComponents s.pathPosition) s.dir) := by
  induction n with
  | zero => exact fun _ h => absurd h (Nat.not_lt_zero _)
  | succ n ih =>
    intro s h hlen
    rw [IsoPathScan.run]
    by_cases hnil : s.pathPosition = []
    · have hf : s.found = true := by rw [h.found, hnil]; rfl
      rw [hf, hnil, h.entry]
      rfl
    · have hf : s.found = false := by rw [h.found, decide_eq_false hnil]
      obtain ⟨c, hne, hc, hpos⟩ := component_cases hnil h.skipped
      rw [hf, h.going, if_neg (by decide)]
      by_cases hlong : ISO_MAXPATHLEN ≤ c.length
      · rw [IsoPathScan.round_long hc hpos hlong]
        rcases hpos with hpos | ⟨rest, hpos⟩
        · rw [hpos, isoComponents_one hc hne, isoFollow, if_pos hlong]
        · rw [hpos, isoComponents_first hc hne, isoFollow, if_pos hlong]
      · have hclt := Nat.lt_of_not_le hlong
        have hcpos := List.length_pos_of_ne_nil hne
        rcases hpos with hpos | ⟨rest, hpos⟩
        · obtain ⟨t, ht, hdone, hres⟩ := IsoPathScan.round_last hc hpos hf h.going hclt
          obtain ⟨m, rfl⟩ : ∃ m, n = m + 1 := ⟨n - 1, by rw [hpos] at hlen; omega⟩
          rw [ht]
          dsimp only
          rw [IsoPathScan.run, if_pos hdone, hres, hpos, isoComponents_one hc hne, isoFollow, if_neg hlong]
          cases s.dir.children.find? (isoSameName c) <;> rfl
        · obtain ⟨t, ht, hcases⟩ := IsoPathScan.round_next hc hpos hf h.going hclt
          rw [hpos, List.length_append, List.length_cons] at hlen
          rw [ht, hpos, isoComponents_first hc hne, isoFollow, if_neg hlong]
          dsimp only
          cases hfind : s.dir.children.find? (isoSameName c) with
          | none =>
            rw [hfind] at hcases
            obtain ⟨m, rfl⟩ : ∃ m, n = m + 1 := ⟨n - 1, by omega⟩
            rw [IsoPathScan.run, hcases.1, hcases.2]
            rfl
          | some e =>
            rw [hfind] at hcases
            obtain ⟨hat, hdir, hrest⟩ := hcases
            have hle := (List.dropWhile_sublist (l := rest) (· = DIR_SEPARATOR)).length_le
            rw [ih hat (by rw [hrest]; exact Nat.lt_of_le_of_lt hle (by omega)), hdir, hrest, isoComponents_skip]
            rfl

/-- **`path_entry_from_path` goes down a directory for each component**, from the root to the first child that has its name. -/
theorem iso_path_follows (root : IsoPathEntry) (path : List UInt8) :
    isoPathEntryFromPath root path = some (isoFollow (isoComponents path) root) := by
  have hat : (IsoPathScan.start root path).AtComponent := ⟨rfl, rfl, rfl, isoSkipSeparators_skip path⟩
  have hle := (List.dropWhile_sublist (l := path) (· = DIR_SEPARATOR)).length_le
  have hrun := IsoPathScan.run_spec (path.length + 1) hat (Nat.lt_succ_of_le hle)
  rw [show (IsoPathScan.start root path).pathPosition = isoSkipSeparators path from rfl, isoComponents_skip] at hrun
  exact hrun

end Libogc
