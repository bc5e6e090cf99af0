import Libogc.Dvd.DvdPause
/-!
# DvdCancel — cancels are answered, and hit the block that they name

The executing block is cancelled by a flag and a callback that the engine keeps until that block ends.  As long as a block does not end
with the flag still set (`dvdEndsClean`), and no cancel names a block that ended in a state that looks like one of the executing block
(`dvdNames`), a block is cancelled only by a cancel that names it, and each cancel is answered once, after that block has ended
(`DvdTold`).
-/
namespace Libogc

open Runs

set_option linter.unusedSectionVars false

variable {B : Type} [DecidableEq B]

/-- The cancel names this issue, which had not ended. -/
def DvdCancel.names (c : DvdCancel B) (b : B) (n : Nat) : Prop := c.block = .block b ∧ c.number = n ∧ c.going = true

instance (c : DvdCancel B) (b : B) (n : Nat) : Decidable (c.names b n) := inferInstanceAs (Decidable (_ ∧ _ ∧ _))

/-- The cancel that a call answers; `told` is the one that the engine keeps. -/
def DvdCall.answers (told : Option Nat) : DvdCall B → Option Nat
  | .cb id _ => id
  | .cancelcb _ => told
  | _ => none

/-- The cancel that a call has yet to make. -/
def DvdCall.asks : DvdCall B → Option Nat
  | .cancelAll id => id
  | _ => none

/-- The cancels whose answers a list of calls holds. -/
def dvdAnswers (told : Option Nat) (calls : List (DvdCall B)) : List Nat := calls.filterMap (DvdCall.answers told)

def dvdAsks (calls : List (DvdCall B)) : List Nat := calls.filterMap DvdCall.asks

/-- The cancel that the engine keeps. -/
def DvdCore.kept (c : DvdCore B) : List Nat := if c.canceling then c.cancelcallback.toList else []

def DvdSys.asked (s : DvdSys B) : List Nat := s.cancels.filterMap DvdCancel.id

/-- At most one block is to be called back, and before anything but a dropped queue. -/
def dvdFront (calls : List (DvdCall B)) : Prop :=
  dvdUsers calls = [] ∨ ∃ b result rest, (calls = .user (.block b) result :: rest ∨ calls = .clearwaitingqueue :: .user (.block b) result :: rest) ∧
    dvdUsers rest = []

/-- The engine keeps the cancel `i`, for the block that the cancel `c` names. -/
def DvdSys.flagged (s : DvdSys B) (c : DvdCancel B) (i : Nat) : Prop :=
  s.core.canceling = true ∧ s.core.cancelcallback = some i ∧ ∃ b, s.core.executing = .block b ∧ c.names b (s.number b)

/-- The issue that the cancel names has ended, or its end is told next. -/
def DvdSys.past (s : DvdSys B) (c : DvdCancel B) : Prop := ∀ b, c.names b (s.number b) → s.pending b = true → b ∈ dvdUsers s.todo

/-- The issue that the cancel names has ended. -/
def DvdSys.ended (s : DvdSys B) (c : DvdCancel B) : Prop := ∀ b, c.names b (s.number b) → s.pending b = false

structure DvdTold (s : DvdSys B) : Prop where
  inv : DvdInv False s
  numbers : DvdNumbers s
  front : dvdFront s.todo
  code : s.user = true → dvdUsers s.todo = []
  held : ∀ x, s.pending x = true → (s.core.blocks x).state = .WAITING ∨ s.core.executing = .block x ∨ x ∈ dvdUsers s.todo
  old : ∀ c ∈ s.cancels, c.going = true → c.number < s.issued
  flag : s.core.canceling = true →
    (∃ b, ∃ c ∈ s.cancels, s.core.executing = .block b ∧ c.id = s.core.cancelcallback ∧ c.names b (s.number b)) ∨ ∃ e, .errorcancel e ∈ s.todo
  cover : s.core.canceling = true → ∀ b, s.core.executing = .block b → (s.core.blocks b).state.atCover = false
  unanswered : ∀ c ∈ s.cancels, ∀ i, c.id = some i → i ∉ s.cancelled → s.flagged c i ∨ s.past c
  after : ∀ c ∈ s.cancels, ∀ i, c.id = some i → i ∈ s.cancelled → s.ended c
  calls : ∀ x ∈ dvdUsers s.todo, (s.core.blocks x).state = .CANCELED → ∃ c ∈ s.cancels, c.names x (s.number x)
  done : ∀ d ∈ s.done, d.blk.state = .CANCELED → ∃ c ∈ s.cancels, c.names d.block d.number
  ids : ∀ i, s.asked.count i = s.cancelled.count i + (dvdAnswers s.core.cancelcallback s.todo).count i + s.core.kept.count i
  fresh : ∀ i, s.asked.count i + (dvdAsks s.todo).count i ≤ 1

/-! ## Calls -/

section Calls
variable {calls calls' : List (DvdCall B)} {call : DvdCall B} {told : Option Nat} {b : B}

theorem dvdAnswers_append : dvdAnswers told (calls ++ calls') = dvdAnswers told calls ++ dvdAnswers told calls' := List.filterMap_append

theorem dvdAsks_append : dvdAsks (calls ++ calls') = dvdAsks calls ++ dvdAsks calls' := List.filterMap_append

/-- The calls that tell nothing. -/
def DvdCall.silent : DvdCall B → Bool
  | .low _ _ | .user (.block _) _ | .cancelcb _ | .errorcancel _ | .stateready | .cb _ _ | .cancelAll _ => false
  | _ => true

theorem DvdCall.plain_of_silent (h : call.silent = true) : call.plain = true := by
  cases call with
  | user e _ =>
    cases e with
    | block => cases h
    | _ => rfl
  | _ => first | rfl | cases h

theorem dvdAnswers_silent (h : ∀ call ∈ calls, call.silent = true) : dvdAnswers told calls = [] := by
  refine List.filterMap_eq_nil_iff.2 fun call hm => ?_
  have hs := h call hm
  cases call with
  | cb => cases hs
  | cancelcb => cases hs
  | _ => rfl

theorem dvdAsks_silent (h : ∀ call ∈ calls, call.silent = true) : dvdAsks calls = [] := by
  refine List.filterMap_eq_nil_iff.2 fun call hm => ?_
  have hs := h call hm
  cases call with
  | cancelAll => cases hs
  | _ => rfl

theorem dvdUsers_silent (h : ∀ call ∈ calls, call.silent = true) : dvdUsers calls = [] :=
  dvdUsers_plain fun call hm => DvdCall.plain_of_silent (h call hm)

theorem dvdAnswers_congr (h : ∀ e, .cancelcb e ∉ calls) (told told' : Option Nat) : dvdAnswers told calls = dvdAnswers told' calls := by
  refine List.filterMap_congr fun call hm => ?_
  cases call with
  | cancelcb e => exact absurd hm (h e)
  | _ => rfl

theorem dvdFront_of_nil (h : dvdUsers calls = []) : dvdFront calls := .inl h

theorem dvdFront_tail (h : dvdFront (call :: calls)) (hcall : call.passes = true) (hclear : call ≠ .clearwaitingqueue) :
    dvdUsers calls = [] := by
  rcases h with h | ⟨b, result, rest, e | e, -⟩
  · rw [dvdUsers_cons_passes hcall] at h
    exact h
  · obtain ⟨rfl, -⟩ := List.cons.inj e
    cases hcall
  · exact absurd (List.cons.inj e).1 hclear

theorem dvdFront_user {result : Int} (h : dvdFront (.user (.block b) result :: calls)) : dvdUsers calls = [] := by
  rcases h with h | ⟨b', result', rest, e | e, hrest⟩
  · cases h
  · obtain ⟨-, rfl⟩ := List.cons.inj e
    exact hrest
  · cases (List.cons.inj e).1

theorem dvdFront_clear (h : dvdFront (.clearwaitingqueue :: calls)) : dvdFront calls := by
  rcases h with h | ⟨b, result, rest, e | e, hrest⟩
  · exact .inl h
  · cases (List.cons.inj e).1
  · obtain ⟨-, rfl⟩ := List.cons.inj e
    exact .inr ⟨b, result, rest, .inl rfl, hrest⟩

/-- Two lists of calls tell the same. -/
structure DvdSame (calls calls' : List (DvdCall B)) : Prop where
  users : dvdUsers calls' = dvdUsers calls
  answers : ∀ told, dvdAnswers told calls' = dvdAnswers told calls
  errors : ∀ e, .errorcancel e ∈ calls → .errorcancel e ∈ calls'

/-- And nothing more is asked. -/
structure DvdQuiet (calls calls' : List (DvdCall B)) : Prop extends DvdSame calls calls' where
  asks : ∀ i, (dvdAsks calls').count i ≤ (dvdAsks calls).count i

theorem DvdQuiet.refl (calls : List (DvdCall B)) : DvdQuiet calls calls := ⟨⟨rfl, fun _ => rfl, fun _ h => h⟩, fun _ => Nat.le_refl _⟩

theorem DvdQuiet.tail (h : call.passes = true) (hanswers : ∀ told, call.answers told = none) (herror : ∀ e, call ≠ .errorcancel e) :
    DvdQuiet (call :: calls) calls where
  users := (dvdUsers_cons_passes h).symm
  answers told := (List.filterMap_cons_none (hanswers told)).symm
  errors e hm := (List.mem_cons.1 hm).resolve_left fun e' => herror e e'.symm
  asks i := by
    unfold dvdAsks
    rw [List.filterMap_cons]
    split
    · exact Nat.le_refl _
    · exact List.count_le_count_cons

theorem DvdQuiet.ready : DvdQuiet (.stateready :: calls) calls :=
  ⟨⟨rfl, fun _ => rfl, fun _ hm => (List.mem_cons.1 hm).resolve_left fun e => by cases e⟩, fun _ => Nat.le_refl _⟩

theorem DvdQuiet.append (h : ∀ call ∈ calls, call.silent = true) : DvdQuiet calls' (calls ++ calls') where
  users := by rw [dvdUsers_append, dvdUsers_silent h, List.nil_append]
  answers told := by rw [dvdAnswers_append, dvdAnswers_silent h, List.nil_append]
  errors e hm := List.mem_append_right _ hm
  asks i := by rw [dvdAsks_append, dvdAsks_silent h, List.nil_append]

end Calls

section Told
variable {clean : Prop} {c c₀ : DvdCore B} {b : B} {cb : DvdLow} {t : Nat} {s s' : DvdSys B}

theorem DvdTold.same (h : DvdTold s) (hinv : DvdInv False s') (hblocks : s'.core.blocks = s.core.blocks)
    (hexec : ∀ x, s'.core.executing = .block x ↔ s.core.executing = .block x) (hcan : s'.core.canceling = s.core.canceling)
    (htold : s'.core.cancelcallback = s.core.cancelcallback) (hhist : s'.history = s.history) (hcancels : s'.cancels = s.cancels)
    (hcancelled : s'.cancelled = s.cancelled) (hquiet : DvdSame s.todo s'.todo) (hfront : dvdFront s'.todo)
    (hcode : s'.user = true → dvdUsers s'.todo = []) (hfresh : ∀ i, s.asked.count i + (dvdAsks s'.todo).count i ≤ 1) : DvdTold s' := by
  have hnumbers := h.numbers.congr hhist
  simp only [DvdSys.history, Prod.mk.injEq] at hhist
  obtain ⟨hissued, hnumber, hpend, hdone⟩ := hhist
  have hnames : ∀ c, s.flagged c = s'.flagged c := by
    intro c
    unfold DvdSys.flagged
    rw [hcan, htold, hnumber]
    simp only [hexec]
  constructor
  case inv => exact hinv
  case numbers => exact hnumbers
  case front => exact hfront
  case code => exact hcode
  case held =>
    intro x hx
    rw [hpend] at hx
    rw [hblocks, hexec, hquiet.users]
    exact h.held x hx
  case old =>
    rw [hcancels, hissued]
    exact h.old
  case flag =>
    rw [hcan, hcancels, htold, hnumber]
    simp only [hexec]
    exact fun hc => (h.flag hc).imp_right fun hm => hm.imp hquiet.errors
  case cover =>
    rw [hcan, hblocks]
    simp only [hexec]
    exact h.cover
  case unanswered =>
    rw [hcancels, hcancelled]
    intro c hc i hi hnot
    rw [← hnames]
    refine (h.unanswered c hc i hi hnot).imp_right fun hpast => ?_
    unfold DvdSys.past
    rw [hnumber, hpend, hquiet.users]
    exact hpast
  case after =>
    rw [hcancels, hcancelled]
    unfold DvdSys.ended
    rw [hnumber, hpend]
    exact h.after
  case calls =>
    rw [hquiet.users, hblocks, hcancels, hnumber]
    exact h.calls
  case done =>
    rw [hdone, hcancels]
    exact h.done
  case ids =>
    intro i
    unfold DvdSys.asked DvdCore.kept
    rw [hcancels, hcancelled, hquiet.answers, hcan, htold]
    exact h.ids i
  case fresh =>
    intro i
    unfold DvdSys.asked
    rw [hcancels]
    exact hfresh i

theorem DvdTold.frame (h : DvdTold s) (hinv : DvdInv False s') (hblocks : s'.core.blocks = s.core.blocks)
    (hexec : ∀ x, s'.core.executing = .block x ↔ s.core.executing = .block x) (hcan : s'.core.canceling = s.core.canceling)
    (htold : s'.core.cancelcallback = s.core.cancelcallback) (hhist : s'.history = s.history) (hcancels : s'.cancels = s.cancels)
    (hcancelled : s'.cancelled = s.cancelled) (hquiet : DvdQuiet s.todo s'.todo) (hfront : dvdFront s'.todo)
    (hcode : s'.user = true → dvdUsers s'.todo = []) : DvdTold s' :=
  h.same hinv hblocks hexec hcan htold hhist hcancels hcancelled hquiet.toDvdSame hfront hcode fun i =>
    Nat.le_trans (Nat.add_le_add_left (hquiet.asks i) _) (h.fresh i)

theorem DvdIn.notCover (h : DvdIn False c₀ b t c) (_ : c₀.canceling = true) (x : B) (hx : c.executing = .block x) :
    (c.blocks x).state.atCover = false := by
  obtain rfl : b = x := DvdExec.block.inj (h.executing.symm.trans hx)
  exact h.cover

variable {calls rest : List (DvdCall B)} {call : DvdCall B} {id : Option Nat}

/-- What a function leaves told: the block goes on, its cancel is answered, or it ends otherwise, and then no cancel is kept for it but
one that its error answers. -/
theorem DvdOutcome.told (h : DvdOutcome False True c₀ b t (c, calls)) :
    c.cancelcallback = c₀.cancelcallback ∧ (∀ x, x ≠ b → c.blocks x = c₀.blocks x) ∧ dvdAsks calls = [] ∧
      (c₀.canceling = true → ∀ x, c.executing = .block x → (c.blocks x).state.atCover = false) ∧
      (c.executing = .block b ∧ c.canceling = c₀.canceling ∧ dvdUsers calls = [] ∧ (∀ told, dvdAnswers told calls = []) ∨
        c.executing = .dummy ∧ dvdUsers calls = [b] ∧ (∀ rest, dvdUsers rest = [] → dvdFront (calls ++ rest)) ∧
          (c₀.canceling = true ∧ c.canceling = false ∧ (∀ told, dvdAnswers told calls = told.toList) ∨
            c.canceling = c₀.canceling ∧ (c.blocks b).state ≠ .CANCELED ∧ (∀ told, dvdAnswers told calls = []) ∧
              (c₀.canceling = true → ∃ e, .errorcancel e ∈ calls))) := by
  cases h with
  | waits _ hw hmotor =>
    refine ⟨hw.cancelcallback, hw.others, rfl, fun hc x hx => ?_, .inl ⟨hw.executing, hw.canceling, rfl, fun _ => rfl⟩⟩
    obtain rfl : b = x := DvdExec.block.inj (hw.executing.symm.trans hx)
    refine Bool.eq_false_iff.2 fun hst => ?_
    cases hc.symm.trans (hmotor ((DvdWaiting.cover hw).1 hst) trivial)
  | final hin _ _ _ => exact ⟨hin.cancelcallback, hin.others, rfl, hin.notCover, .inl ⟨hin.executing, hin.canceling, rfl, fun _ => rfl⟩⟩
  | stuck hin _ => exact ⟨hin.cancelcallback, hin.others, rfl, hin.notCover, .inl ⟨hin.executing, hin.canceling, rfl, fun _ => rfl⟩⟩
  | @ends _ state canceling _ he haft _ _ _ =>
    refine ⟨haft.cancelcallback, haft.others, ?_, (fun _ x hx => by cases haft.executing.symm.trans hx),
      .inr ⟨haft.executing, he.calls.1, fun rest hrest => ?_, ?_⟩⟩
    · cases he <;> rfl
    · refine .inr ?_
      cases he with
      | covered => exact ⟨_, _, .stateready :: rest, .inr rfl, hrest⟩
      | cancelled => exact ⟨_, _, .cancelcb (.block b) :: .stateready :: rest, .inl rfl, hrest⟩
      | error => exact ⟨_, _, .errorcancel (.block b) :: .stateready :: rest, .inl rfl, hrest⟩
      | remounted => exact ⟨_, _, .mountcb (.block b) :: .stateready :: rest, .inl rfl, hrest⟩
      | finished => exact ⟨_, _, .stateready :: rest, .inl rfl, hrest⟩
    · have hlive : ∀ state : DvdState, state.live = true → state ≠ .CANCELED := by
        rintro state hl rfl
        cases hl
      rw [haft.canceling, haft.state]
      cases he with
      | cancelled hc =>
        refine .inl ⟨hc, rfl, fun told => ?_⟩
        cases told <;> rfl
      | error state _ hl =>
        exact .inr ⟨rfl, hlive state hl, fun _ => rfl, fun _ => ⟨.block b, List.mem_cons_of_mem _ List.mem_cons_self⟩⟩
      | covered state _ hl _ hclean => exact .inr ⟨rfl, hlive state hl, fun _ => rfl, fun hc => absurd trivial (hclean hc)⟩
      | remounted hclean => exact .inr ⟨rfl, by decide, fun _ => rfl, fun hc => absurd trivial (hclean hc)⟩
      | finished state res hst hclean =>
        refine .inr ⟨rfl, ?_, fun _ => rfl, fun hc => absurd trivial (hclean hc)⟩
        rcases hst with rfl | rfl | rfl <;> decide

/-- What holds besides while a function of the driver runs for the block `b`. -/
structure DvdToldMid (b : B) (c₀ : DvdCore B) (m : DvdSys B) : Prop where
  mid : DvdMid b c₀ m
  numbers : DvdNumbers m
  users : dvdUsers m.todo = []
  held : ∀ x, x ≠ b → m.pending x = true → (c₀.blocks x).state = .WAITING
  old : ∀ c ∈ m.cancels, c.going = true → c.number < m.issued
  flag : c₀.canceling = true → ∃ c ∈ m.cancels, c.id = c₀.cancelcallback ∧ c.names b (m.number b)
  unanswered : ∀ c ∈ m.cancels, ∀ i, c.id = some i → i ∉ m.cancelled →
    (c₀.canceling = true ∧ c₀.cancelcallback = some i ∧ c.names b (m.number b)) ∨ m.ended c
  after : ∀ c ∈ m.cancels, ∀ i, c.id = some i → i ∈ m.cancelled → m.ended c
  done : ∀ d ∈ m.done, d.blk.state = .CANCELED → ∃ c ∈ m.cancels, c.names d.block d.number
  ids : ∀ i, m.asked.count i = m.cancelled.count i + (dvdAnswers c₀.cancelcallback m.todo).count i + c₀.kept.count i
  fresh : ∀ i, m.asked.count i + (dvdAsks m.todo).count i ≤ 1

variable {k : DvdCancel B} {blk : DvdBlock} {e : DvdExec B}

theorem DvdCancel.names_block {x y : B} {n n' : Nat} (h : k.names x n) (h' : k.names y n') : x = y := by
  obtain ⟨hb, -⟩ := h
  obtain ⟨hb', -⟩ := h'
  exact DvdExec.block.inj (hb.symm.trans hb')

theorem DvdToldMid.outcome {m : DvdSys B} (h : DvdToldMid b c₀ m) {extra : List (DvdCall B)}
    (hout : DvdOutcome False True c₀ b t (c, calls)) (hextra : ∀ call ∈ extra, call.silent = true) :
    DvdTold (m.pushRun (c, calls ++ extra)) := by
  have hinv := h.mid.outcome hout fun call hm => DvdCall.plain_of_silent (hextra call hm)
  have hnumbers : DvdNumbers (m.pushRun (c, calls ++ extra)) := h.numbers.congr (DvdSys.pushRun_history m (c, calls ++ extra))
  obtain ⟨htold, hothers, hasks, hcover, hcases⟩ := hout.told
  obtain ⟨back, hback, htodo⟩ := DvdSys.push_todo { m with core := c } (calls ++ extra)
  have hsilent : ∀ call ∈ extra ++ back, call.silent = true := by
    intro call hm
    rcases List.mem_append.1 hm with hm | hm
    · exact hextra call hm
    · rw [hback call hm]
      rfl
  have htodo' : (DvdSys.push { m with core := c } (calls ++ extra)).todo = calls ++ ((extra ++ back) ++ m.todo) := by
    rw [htodo, List.append_assoc, List.append_assoc]
  have husers : dvdUsers ((extra ++ back) ++ m.todo) = [] := by
    rw [dvdUsers_append, dvdUsers_silent hsilent, List.nil_append, h.users]
  have hanswers : ∀ told, dvdAnswers told ((extra ++ back) ++ m.todo) = dvdAnswers told m.todo := fun told => by
    rw [dvdAnswers_append, dvdAnswers_silent hsilent, List.nil_append]
  have hasked : dvdAsks (calls ++ ((extra ++ back) ++ m.todo)) = dvdAsks m.todo := by
    rw [dvdAsks_append, hasks, dvdAsks_append, dvdAsks_silent hsilent]
    rfl
  have huser : (DvdSys.push { m with core := c } (calls ++ extra)).user = true → calls ++ extra = [] := by
    intro hu
    unfold DvdSys.push at hu
    split at hu
    · assumption
    · cases hu
  unfold DvdSys.pushRun at hinv hnumbers ⊢
  dsimp only at hinv hnumbers ⊢
  obtain ⟨todo, user, heq⟩ := DvdSys.push_eq { m with core := c } (calls ++ extra)
  rw [heq] at hinv hnumbers htodo' huser ⊢
  dsimp only at htodo' huser
  subst htodo'
  have hu : dvdUsers (calls ++ ((extra ++ back) ++ m.todo)) = dvdUsers calls := by rw [dvdUsers_append, husers, List.append_nil]
  have hcount : ∀ i, (dvdAnswers c.cancelcallback (calls ++ ((extra ++ back) ++ m.todo))).count i + c.kept.count i =
      (dvdAnswers c₀.cancelcallback m.todo).count i + c₀.kept.count i := by
    intro i
    rw [dvdAnswers_append, hanswers, htold, List.count_append]
    unfold DvdCore.kept
    rcases hcases with ⟨-, hcan, -, hno⟩ | ⟨-, -, -, ⟨hcan, hcan', hno⟩ | ⟨hcan, -, hno, -⟩⟩
    · rw [hno, hcan, htold, List.count_nil, Nat.zero_add]
    · rw [hno, hcan, hcan', if_pos rfl, if_neg Bool.false_ne_true, List.count_nil]
      omega
    · rw [hno, hcan, htold, List.count_nil, Nat.zero_add]
  constructor
  case inv => exact hinv
  case numbers => exact hnumbers
  case front =>
    rcases hcases with ⟨-, -, hno, -⟩ | ⟨-, -, hfront, -⟩
    · exact dvdFront_of_nil (hu.trans hno)
    · exact hfront _ husers
  case code =>
    intro hcode
    rw [hu]
    rw [(List.append_eq_nil_iff.1 (huser hcode)).1]
    rfl
  case held =>
    intro x hx
    show (c.blocks x).state = _ ∨ c.executing = _ ∨ x ∈ dvdUsers (calls ++ _)
    rw [hu]
    by_cases hxb : x = b
    · rcases hcases with ⟨hexec, -⟩ | ⟨-, hb, -⟩
      · exact .inr (.inl (hxb ▸ hexec))
      · rw [hb, hxb]
        exact .inr (.inr List.mem_cons_self)
    · rw [hothers x hxb]
      exact .inl (h.held x hxb hx)
  case old => exact h.old
  case flag =>
    intro hc
    rcases hcases with ⟨hexec, hcan, -⟩ | ⟨-, -, -, ⟨-, hcan, -⟩ | ⟨hcan, -, -, herror⟩⟩
    · obtain ⟨k, hk, hid, hnames⟩ := h.flag (hcan.symm.trans hc)
      exact .inl ⟨b, k, hk, hexec, hid.trans htold.symm, hnames⟩
    · cases hcan.symm.trans hc
    · obtain ⟨e, hm⟩ := herror (hcan.symm.trans hc)
      exact .inr ⟨e, List.mem_append_left _ hm⟩
  case cover =>
    intro hc x hx
    refine hcover ?_ x hx
    rcases hcases with ⟨-, hcan, -⟩ | ⟨-, -, -, ⟨-, hcan, -⟩ | ⟨hcan, -⟩⟩
    · exact hcan.symm.trans hc
    · cases hcan.symm.trans hc
    · exact hcan.symm.trans hc
  case unanswered =>
    intro k hk i hi hnot
    unfold DvdSys.flagged DvdSys.past
    dsimp only
    rw [hu]
    rcases h.unanswered k hk i hi hnot with ⟨hcan₀, htold₀, hnames⟩ | hended
    · rcases hcases with ⟨hexec, hcan, -⟩ | ⟨-, hb, -⟩
      · exact .inl ⟨hcan.trans hcan₀, htold.trans htold₀, b, hexec, hnames⟩
      · refine .inr fun x hx _ => ?_
        rw [hb, DvdCancel.names_block hx hnames]
        exact List.mem_cons_self
    · exact .inr fun x hx hp => Bool.noConfusion ((hended x hx).symm.trans hp)
  case after => exact h.after
  case calls =>
    intro x hx hst
    rw [show dvdUsers _ = dvdUsers calls from hu] at hx
    rcases hcases with ⟨-, -, hno, -⟩ | ⟨-, hb, -, ⟨hcan, -, -⟩ | ⟨-, hne, -⟩⟩
    · rw [hno] at hx
      cases hx
    · rw [hb] at hx
      obtain rfl := List.mem_singleton.1 hx
      obtain ⟨k, hk, -, hnames⟩ := h.flag hcan
      exact ⟨k, hk, hnames⟩
    · rw [hb] at hx
      obtain rfl := List.mem_singleton.1 hx
      exact absurd hst hne
  case done => exact h.done
  case ids =>
    intro i
    have hi := h.ids i
    have hc := hcount i
    show m.asked.count i = m.cancelled.count i + (dvdAnswers c.cancelcallback (calls ++ ((extra ++ back) ++ m.todo))).count i + c.kept.count i
    omega
  case fresh =>
    intro i
    show m.asked.count i + (dvdAsks (calls ++ ((extra ++ back) ++ m.todo))).count i ≤ 1
    rw [hasked]
    exact h.fresh i

theorem DvdSys.push_user (s : DvdSys B) (calls : List (DvdCall B)) : (s.push calls).user = true → calls = [] := by
  intro hu
  unfold DvdSys.push at hu
  split at hu
  · rfl
  · cases hu

theorem DvdInv.noAnswers (h : DvdInv False s) (hexec : s.core.executing ≠ .dummy) (e : DvdExec B) :
    .errorcancel e ∉ s.todo ∧ .cancelcb e ∉ s.todo := by
  refine dvdErrorsFirst_none h.errors ?_ e
  rw [h.readies, if_neg hexec]

theorem DvdSys.past.ended (h : s.past k) (husers : dvdUsers s.todo = []) : s.ended k := by
  intro x hx
  refine Bool.eq_false_iff.2 fun hp => ?_
  have hm := h x hx hp
  rw [husers] at hm
  cases hm

theorem DvdTold.pushSilent (h : DvdTold s) (husers : dvdUsers s.todo = []) (hinv : DvdInv False (s.push calls))
    (hcalls : ∀ call ∈ calls, call.silent = true) : DvdTold (s.push calls) := by
  obtain ⟨back, hback, htodo⟩ := s.push_todo calls
  have hsilent : ∀ call ∈ calls ++ back, call.silent = true := by
    intro call hm
    rcases List.mem_append.1 hm with hm | hm
    · exact hcalls call hm
    · rw [hback call hm]
      rfl
  rw [← List.append_assoc] at htodo
  have hquiet : DvdQuiet s.todo (s.push calls).todo := by
    rw [htodo]
    exact .append hsilent
  have hhist := DvdSys.push_history s calls
  obtain ⟨todo, user, heq⟩ := s.push_eq calls
  rw [heq] at hinv hquiet hhist ⊢
  exact h.frame hinv rfl (fun _ => Iff.rfl) rfl rfl hhist rfl rfl hquiet (dvdFront_of_nil (hquiet.users.trans husers)) fun _ =>
    hquiet.users.trans husers

theorem DvdTold.of_turned (h : DvdTold s) (husers : dvdUsers s.todo = []) (ht : DvdTurned False True s s') : DvdTold s' := by
  have hinv := h.inv.of_turned ht
  cases ht with
  | @idle c₁ extra htaken hcb hno hextra =>
    obtain ⟨regs, low, rfl⟩ := htaken.eq
    have hset : DvdTold { s with core := { s.core with regs := regs, low := low } } := by
      refine h.frame ?_ rfl (fun _ => Iff.rfl) rfl rfl rfl rfl rfl (.refl _) h.front h.code
      have hnone : DvdInv False (s.pushRun ({ s.core with regs := regs, low := low }, [])) :=
        h.inv.turn_none hno htaken hcb fun call hm => by cases hm
      exact hnone
    exact hset.pushSilent husers hinv fun call hm => by rw [hextra call hm]; rfl
  | @called b cb c₁ c m result calls extra hc hm htodo hcalled hmid hcall hout hextra hdel =>
    obtain ⟨regs, low, rfl⟩ := hc
    obtain ⟨delivered, todo, user, rfl⟩ := hm
    have hexec : s.core.executing = .block b := hcalled.executing
    have hquiet : DvdQuiet s.todo todo := by
      rcases htodo with e | e
      · rw [show todo = s.todo from e]
        exact .refl _
      · rw [show s.todo = .low cb result :: todo from e]
        exact ⟨⟨rfl, fun _ => rfl, fun _ hm => (List.mem_cons.1 hm).resolve_left fun e => by cases e⟩, fun _ => Nat.le_refl _⟩
    have hmidt : DvdToldMid b { s.core with regs := regs, low := low } { s with delivered := delivered, todo := todo, user := user } := by
      constructor
      case mid => exact hmid
      case numbers => exact h.numbers.congr rfl
      case users => exact hquiet.users.trans husers
      case held =>
        intro x hxb hx
        rcases h.held x hx with hst | e | hm
        · exact hst
        · exact absurd (DvdExec.block.inj (e.symm.trans hexec)) hxb
        · rw [husers] at hm
          cases hm
      case old => exact h.old
      case flag =>
        intro hcan
        rcases h.flag hcan with ⟨b', k, hk, e, hid, hnames⟩ | ⟨e, hm⟩
        · obtain rfl : b = b' := DvdExec.block.inj (hexec.symm.trans e)
          exact ⟨k, hk, hid, hnames⟩
        · exact absurd hm (h.inv.noAnswers (by rw [hexec]; exact fun e => by cases e) e).1
      case unanswered =>
        intro k hk i hi hnot
        rcases h.unanswered k hk i hi hnot with ⟨hcan, htold, b', e, hnames⟩ | hpast
        · obtain rfl : b = b' := DvdExec.block.inj (hexec.symm.trans e)
          exact .inl ⟨hcan, htold, hnames⟩
        · exact .inr (hpast.ended husers)
      case after => exact h.after
      case done => exact h.done
      case ids =>
        intro i
        show s.asked.count i = s.cancelled.count i + (dvdAnswers s.core.cancelcallback todo).count i + s.core.kept.count i
        rw [hquiet.answers]
        exact h.ids i
      case fresh => exact fun i => Nat.le_trans (Nat.add_le_add_left (hquiet.asks i) _) (h.fresh i)
    exact hmidt.outcome hout fun call hm => by rw [hextra call hm]; rfl

theorem DvdTold.stateready (h : DvdTold s.cleared) (husers : dvdUsers s.todo = []) : DvdTold s.stateready := by
  have hinv := h.inv.stateready False.elim
  have hcan : s.core.canceling = false := by
    refine Bool.eq_false_iff.2 fun hc => ?_
    rcases h.flag hc with ⟨b, k, -, e, -⟩ | ⟨e, hm⟩
    · cases e
    · exact (h.inv.noAnswers (fun e => by cases e) e).1 hm
  rcases h.inv.stateready_cases with ⟨-, heq⟩ | ⟨-, heq⟩ | ⟨p, b, rest, calls, extra, hq, -, -, hextra, hmid, c, hout, heq⟩
  · rw [heq]
    exact h
  · rw [heq] at hinv ⊢
    exact h.frame hinv rfl (fun _ => Iff.rfl) rfl rfl rfl rfl rfl (.refl _) h.front h.code
  · rw [heq]
    have hmidt : DvdToldMid b (s.core.starting b) (s.starting p b rest) := by
      refine ⟨hmid, h.numbers.congr rfl, husers, fun x _ hx => ?_, h.old, fun hc => Bool.noConfusion (hcan.symm.trans hc),
        fun k hk i hi hnot => .inr ?_, h.after, h.done, h.ids, h.fresh⟩
      · rcases h.held x hx with hst | e | hm
        · exact hst
        · cases e
        · rw [show dvdUsers s.cleared.todo = [] from husers] at hm
          cases hm
      · rcases h.unanswered k hk i hi hnot with ⟨hc, -⟩ | hpast
        · exact Bool.noConfusion (hcan.symm.trans hc)
        · exact hpast.ended husers
    exact hmidt.outcome (hout False True False.elim fun _ => hcan) fun call hm => by rw [hextra call hm]; rfl

/-! ### Blocks are issued -/

theorem DvdTold.users (h : DvdTold s) (hi : s.idle = true ∨ s.user = true) : dvdUsers s.todo = [] := by
  rcases hi with hi | hu
  · unfold DvdSys.idle at hi
    rw [Bool.and_eq_true] at hi
    rw [List.isEmpty_iff.1 hi.1]
    rfl
  · exact h.code hu

theorem DvdTold.cleared (h : DvdTold s) (hexec : s.core.executing = .null) : DvdTold s.cleared := by
  unfold DvdSys.cleared
  rw [← hexec]
  exact h

theorem DvdTold.enqueued (h : DvdTold s) (hno : dvdNoLow s.todo) (hpend : s.pending b = false) (hv : blk.valid) (prio : Fin 4) :
    DvdTold (s.enqueued prio b blk) := by
  have hself : (s.enqueued prio b blk).core.blocks b = { blk with state := .WAITING } := Function.update_self ..
  have hne : ∀ x, x ≠ b → (s.enqueued prio b blk).core.blocks x = s.core.blocks x := fun x hx => Function.update_of_ne hx ..
  have hpne : ∀ x, s.pending x = true → x ≠ b := by
    rintro x hx rfl
    exact Bool.noConfusion (hpend.symm.trans hx)
  have hnum : ∀ x, x ≠ b → (s.enqueued prio b blk).number x = s.number x := fun x hx => Function.update_of_ne hx ..
  have hexec : ∀ x, s.core.executing = .block x → x ≠ b := fun x hx => hpne x (h.inv.runs x hx).1
  have husers : ∀ x ∈ dvdUsers s.todo, x ≠ b := fun x hx => hpne x (h.inv.called x hx)
  -- an issue that was named before is an old one
  have hnames : ∀ k ∈ s.cancels, ∀ x, k.names x ((s.enqueued prio b blk).number x) → x ≠ b ∧ k.names x (s.number x) := by
    intro k hk x hx
    have hxb : x ≠ b := by
      rintro rfl
      have hnumber : k.number = s.issued := hx.2.1.trans (Function.update_self ..)
      exact absurd (h.old k hk hx.2.2) (by rw [hnumber]; exact Nat.lt_irrefl _)
    rw [hnum x hxb] at hx
    exact ⟨hxb, hx⟩
  constructor
  case inv => exact h.inv.enqueued hno hpend hv prio
  case numbers => exact h.numbers.enqueued prio b blk
  case front => exact h.front
  case code => exact h.code
  case held =>
    intro x hx
    by_cases hxb : x = b
    · rw [hxb, hself]
      exact .inl rfl
    · rw [hne x hxb]
      exact h.held x ((Function.update_of_ne hxb ..).symm.trans hx)
  case old => exact fun k hk hgoing => Nat.lt_succ_of_lt (h.old k hk hgoing)
  case flag =>
    intro hc
    refine (h.flag hc).imp_left fun ⟨x, k, hk, hx, hid, hkx⟩ => ⟨x, k, hk, hx, hid, ?_⟩
    rw [hnum x (hexec x hx)]
    exact hkx
  case cover =>
    intro hc x hx
    rw [hne x (hexec x hx)]
    exact h.cover hc x hx
  case unanswered =>
    intro k hk i hi hnot
    rcases h.unanswered k hk i hi hnot with ⟨hcan, htold, x, hx, hkx⟩ | hpast
    · refine .inl ⟨hcan, htold, x, hx, ?_⟩
      rw [hnum x (hexec x hx)]
      exact hkx
    · refine .inr fun x hx hp => ?_
      obtain ⟨hxb, hkx⟩ := hnames k hk x hx
      exact hpast x hkx ((Function.update_of_ne hxb ..).symm.trans hp)
  case after =>
    intro k hk i hi hm x hx
    obtain ⟨hxb, hkx⟩ := hnames k hk x hx
    exact (Function.update_of_ne hxb ..).trans (h.after k hk i hi hm x hkx)
  case calls =>
    intro x hx hst
    have hxb := husers x hx
    rw [hne x hxb] at hst
    rw [hnum x hxb]
    exact h.calls x hx hst
  case done => exact h.done
  case ids => exact h.ids
  case fresh => exact h.fresh

theorem DvdTold.issuecommand (h : DvdTold s) (hi : s.idle = true ∨ s.user = true) (hpend : s.pending b = false) (hv : blk.valid)
    (prio : Fin 4) : DvdTold (s.issuecommand prio b blk) := by
  have henq := h.enqueued (h.inv.noLow hi) hpend hv prio
  rw [DvdSys.issuecommand_eq]
  split
  case isTrue hnull => exact (henq.cleared hnull.1).stateready (h.users hi)
  case isFalse => exact henq

theorem DvdTold.pause (h : DvdTold s) (hno : dvdNoLow s.todo) : DvdTold s.pause :=
  h.frame (h.inv.pause hno) rfl (fun _ => Iff.rfl) rfl rfl rfl rfl rfl (.refl _) h.front h.code

theorem DvdTold.resumes (h : DvdTold s) (hno : dvdNoLow s.todo) (husers : dvdUsers s.todo = []) : DvdTold s.resume := by
  have hinv := h.inv.resumes hno False.elim
  unfold DvdSys.resume at hinv ⊢
  dsimp only at hinv ⊢
  split
  case isTrue hp =>
    have hs : DvdInv False { s with pauseflag := false, pausingflag := false } :=
      h.inv.frame hno hno (.refl h.inv.resume) rfl (fun _ => .refl _) rfl rfl rfl h.inv.errors fun e => by cases e
    have htold : DvdTold { s with pauseflag := false, pausingflag := false } :=
      h.frame hs rfl (fun _ => Iff.rfl) rfl rfl rfl rfl rfl (.refl _) h.front h.code
    exact (htold.cleared (h.inv.pausing hp).1).stateready husers
  case isFalse hp =>
    rw [if_neg hp] at hinv
    exact h.frame hinv rfl (fun _ => Iff.rfl) rfl rfl rfl rfl rfl (.refl _) h.front h.code

/-! ### Blocks are cancelled -/

theorem DvdSys.push_answers (s : DvdSys B) (calls : List (DvdCall B)) (told : Option Nat) :
    dvdAnswers told (s.push calls).todo = dvdAnswers told calls ++ dvdAnswers told s.todo := by
  obtain ⟨back, hback, htodo⟩ := s.push_todo calls
  have hsilent : ∀ call ∈ back, call.silent = true := fun call hm => by rw [hback call hm]; rfl
  rw [htodo, dvdAnswers_append, dvdAnswers_append, dvdAnswers_silent hsilent, List.nil_append]

theorem DvdSys.push_asks (s : DvdSys B) (calls : List (DvdCall B)) : dvdAsks (s.push calls).todo = dvdAsks calls ++ dvdAsks s.todo := by
  obtain ⟨back, hback, htodo⟩ := s.push_todo calls
  have hsilent : ∀ call ∈ back, call.silent = true := fun call hm => by rw [hback call hm]; rfl
  rw [htodo, dvdAsks_append, dvdAsks_append, dvdAsks_silent hsilent, List.nil_append]

theorem DvdSys.push_mem (s : DvdSys B) (calls : List (DvdCall B)) (h : call ∈ s.todo) : call ∈ (s.push calls).todo := by
  obtain ⟨back, -, htodo⟩ := s.push_todo calls
  rw [htodo]
  exact List.mem_append_right _ (List.mem_append_right _ h)

/-- Its callback was not given to a cancel before. -/
def DvdSys.unasked (s : DvdSys B) (id : Option Nat) : Prop := ∀ i, id = some i → s.asked.count i + (dvdAsks s.todo).count i = 0

theorem DvdSys.accept_asked (s : DvdSys B) (id : Option Nat) (e : DvdExec B) (i : Nat) :
    (s.accept id e).asked.count i = s.asked.count i + id.toList.count i := by
  unfold DvdSys.asked DvdSys.accept
  rw [List.filterMap_append, List.count_append]
  cases id <;> rfl

theorem DvdSys.unasked.fresh (hid : s.unasked id) (h : ∀ i, s.asked.count i + (dvdAsks s.todo).count i ≤ 1) (e : DvdExec B) (i : Nat) :
    (s.accept id e).asked.count i + (dvdAsks s.todo).count i ≤ 1 := by
  rw [DvdSys.accept_asked]
  cases id with
  | none => exact h i
  | some j =>
    by_cases hij : i = j
    · have hzero := hid j rfl
      rw [hij, show (some j).toList.count j = 1 from List.count_singleton_self]
      omega
    · have hone := h i
      rw [show (some j).toList.count i = 0 from List.count_eq_zero.2 fun hm => hij (List.mem_singleton.1 hm)]
      omega

theorem DvdTold.unasked (h : DvdTold s) (hid : s.unasked id) (i : Nat) (hi : id = some i) : i ∉ s.cancelled := by
  intro hm
  have hpos := List.count_pos_iff.2 hm
  have hids := h.ids i
  have hzero := hid i hi
  omega

theorem DvdTold.accept_old (h : DvdTold s) (id : Option Nat) (e : DvdExec B) :
    ∀ k ∈ (s.accept id e).cancels, k.going = true → k.number < s.issued := by
  intro k hk hgoing
  rcases List.mem_append.1 hk with hk | hk
  · exact h.old k hk hgoing
  · obtain rfl := List.mem_singleton.1 hk
    cases e with
    | block b => exact h.numbers.less b hgoing
    | _ => cases hgoing

/-- A cancel that is answered at once names no block that goes on, or tells nobody. -/
theorem DvdTold.answered (h : DvdTold s) (hno : dvdNoLow s.todo) (husers : dvdUsers s.todo = []) (hid : s.unasked id)
    (hgone : id = none ∨ s.goingOf e = false) (hplain : ∀ call ∈ calls, call.plain = true) (hasks : dvdAsks calls = [])
    (hanswers : ∀ told, dvdAnswers told calls = id.toList) : DvdTold ((s.accept id e).push calls) := by
  have hinv := (h.inv.accept hno id e).pushPlain hno hplain
  have hhist := (s.accept id e).push_history calls
  have husers' := DvdSys.push_users (s := s.accept id e) calls
  rw [dvdUsers_plain hplain, List.nil_append, show dvdUsers (s.accept id e).todo = [] from husers] at husers'
  have hans := (s.accept id e).push_answers calls
  have hask := (s.accept id e).push_asks calls
  rw [hasks, List.nil_append] at hask
  have hmem : ∀ call ∈ (s.accept id e).todo, call ∈ ((s.accept id e).push calls).todo := fun _ hm => (s.accept id e).push_mem calls hm
  have hold := h.accept_old id e
  have hnew : ∀ k ∈ (s.accept id e).cancels, ∀ i, k.id = some i → k ∈ s.cancels ∨ id = some i ∧ ∀ b n, ¬ k.names b n := by
    intro k hk i hi
    rcases List.mem_append.1 hk with hk | hk
    · exact .inl hk
    · obtain rfl := List.mem_singleton.1 hk
      refine .inr ⟨hi, fun b n hn => ?_⟩
      rcases hgone with hnone | hgone
      · cases hnone.symm.trans hi
      · exact Bool.noConfusion (hgone.symm.trans hn.2.2)
  obtain ⟨todo, user, heq⟩ := (s.accept id e).push_eq calls
  rw [heq] at hinv hhist husers' hans hask hmem ⊢
  dsimp only at husers' hans hask hmem
  constructor
  case inv => exact hinv
  case numbers => exact h.numbers.congr hhist
  case front => exact dvdFront_of_nil husers'
  case code => exact fun _ => husers'
  case held =>
    intro x hx
    have hx' := h.held x hx
    rw [husers] at hx'
    show _ ∨ _ ∨ x ∈ dvdUsers todo
    rw [husers']
    exact hx'
  case old => exact hold
  case flag =>
    exact fun hc => (h.flag hc).imp (fun ⟨b, k, hk, hb⟩ => ⟨b, k, List.mem_append_left _ hk, hb⟩) fun ⟨e', hm⟩ => ⟨e', hmem _ hm⟩
  case cover => exact h.cover
  case unanswered =>
    intro k hk i hi hnot
    rcases hnew k hk i hi with hk | ⟨-, hnames⟩
    · refine (h.unanswered k hk i hi hnot).imp_right fun hpast x hx hp => ?_
      exact Bool.noConfusion ((hpast.ended husers x hx).symm.trans hp)
    · exact .inr fun x hx => absurd hx (hnames x _)
  case after =>
    intro k hk i hi hm
    rcases hnew k hk i hi with hk | ⟨-, hnames⟩
    · exact h.after k hk i hi hm
    · exact fun x hx => absurd hx (hnames x _)
  case calls =>
    intro x hx
    rw [show dvdUsers _ = [] from husers'] at hx
    cases hx
  case done =>
    intro d hd hst
    obtain ⟨k, hk, hn⟩ := h.done d hd hst
    exact ⟨k, List.mem_append_left _ hk, hn⟩
  case ids =>
    intro i
    have hcount := h.ids i
    show (s.accept id e).asked.count i = s.cancelled.count i + (dvdAnswers s.core.cancelcallback todo).count i + s.core.kept.count i
    rw [DvdSys.accept_asked, hans, hanswers, List.count_append]
    show _ = _ + (_ + (dvdAnswers s.core.cancelcallback s.todo).count i) + _
    omega
  case fresh =>
    intro i
    show (s.accept id e).asked.count i + (dvdAsks todo).count i ≤ 1
    rw [hask]
    exact hid.fresh h.fresh e i

theorem DvdTold.cancelFlag (h : DvdTold s) (hno : dvdNoLow s.todo) (husers : dvdUsers s.todo = []) (hid : s.unasked id)
    (hexec : s.core.executing = .block b ∨ s.core.canceling = true) (hst : (s.core.blocks b).state.atCover = false) (brk : Bool) :
    DvdTold (s.cancelFlag (.block b) id brk) := by
  have hinv := h.inv.cancelFlag hno (.block b) id brk
  unfold DvdSys.cancelFlag at hinv ⊢
  by_cases hcan : s.core.canceling = true
  · rw [if_pos hcan]
    exact h
  rw [if_neg hcan] at hinv ⊢
  have hexec := hexec.resolve_right hcan
  have hpend := (h.inv.runs b hexec).1
  have hanswers : dvdAnswers id s.todo = dvdAnswers s.core.cancelcallback s.todo :=
    dvdAnswers_congr (fun e => (h.inv.noAnswers (by rw [hexec]; exact fun e => by cases e) e).2) _ _
  have hold := h.accept_old id (.block b)
  refine ⟨hinv, h.numbers.congr rfl, h.front, h.code, h.held, hold, fun _ => .inl ⟨b, _, List.mem_append_right _ List.mem_cons_self,
    hexec, rfl, rfl, rfl, hpend⟩, ?_, ?_, ?_, ?_, ?_, ?_, hid.fresh h.fresh (.block b)⟩
  · intro _ x hx
    obtain rfl : b = x := DvdExec.block.inj (hexec.symm.trans hx)
    exact hst
  · intro k hk i hi hnot
    rcases List.mem_append.1 hk with hk | hk
    · rcases h.unanswered k hk i hi hnot with ⟨hc, -⟩ | hpast
      · exact absurd hc hcan
      · exact .inr hpast
    · obtain rfl := List.mem_singleton.1 hk
      exact .inl ⟨rfl, hi, b, hexec, rfl, rfl, hpend⟩
  · intro k hk i hi hm
    rcases List.mem_append.1 hk with hk | hk
    · exact h.after k hk i hi hm
    · obtain rfl := List.mem_singleton.1 hk
      exact absurd hm (h.unasked hid i hi)
  · intro x hx
    have hx' : x ∈ dvdUsers s.todo := hx
    rw [husers] at hx'
    cases hx'
  · intro d hd hst'
    obtain ⟨k, hk, hn⟩ := h.done d hd hst'
    exact ⟨k, List.mem_append_left _ hk, hn⟩
  · intro i
    have hcount := h.ids i
    have hkept : s.core.kept = [] := if_neg hcan
    show (s.accept id (.block b)).asked.count i = s.cancelled.count i + (dvdAnswers id s.todo).count i + id.toList.count i
    rw [DvdSys.accept_asked, hanswers]
    rw [hkept, List.count_nil] at hcount
    omega

/-- **A block that ends when it is cancelled** is called back before its cancel is answered. -/
theorem DvdTold.cancelled (h : DvdTold s) (husers : dvdUsers s.todo = []) (hid : s.unasked id) (hpend : s.pending b = true)
    {q : Fin 4 → List B} (hblocks : c.blocks = Function.update s.core.blocks b { s.core.blocks b with state := .CANCELED })
    (hcan : c.canceling = s.core.canceling) (htold : c.cancelcallback = s.core.cancelcallback)
    (hexec : ∀ x, c.executing = .block x ↔ s.core.executing = .block x ∧ x ≠ b)
    (hflag : s.core.canceling = true → s.core.executing ≠ .block b) (hcalls : ∀ told, dvdAnswers told calls = [])
    (hcallers : dvdUsers calls = []) (hasks : dvdAsks calls = [])
    (hinv : DvdInv False ((DvdSys.accept { s with core := c, waitingqueue := q } id (.block b)).push (.user (.block b) DVD_ERROR_CANCELED :: .cb id (.block b) :: calls))) :
    DvdTold ((DvdSys.accept { s with core := c, waitingqueue := q } id (.block b)).push
      (.user (.block b) DVD_ERROR_CANCELED :: .cb id (.block b) :: calls)) := by
  have hself : c.blocks b = { s.core.blocks b with state := .CANCELED } := by rw [hblocks, Function.update_self]
  have hne : ∀ x, x ≠ b → c.blocks x = s.core.blocks x := fun x hx => by rw [hblocks, Function.update_of_ne hx]
  have hold := h.accept_old id (.block b)
  have hfresh := hid.fresh h.fresh (.block b)
  have hasked := s.accept_asked id (.block b)
  generalize hcs : DvdCall.user (.block b) DVD_ERROR_CANCELED :: .cb id (.block b) :: calls = cs at hinv ⊢
  have hhist := DvdSys.push_history (DvdSys.accept { s with core := c, waitingqueue := q } id (.block b)) cs
  have husers' := DvdSys.push_users (s := DvdSys.accept { s with core := c, waitingqueue := q } id (.block b)) cs
  have hans := DvdSys.push_answers (DvdSys.accept { s with core := c, waitingqueue := q } id (.block b)) cs
  have hask := DvdSys.push_asks (DvdSys.accept { s with core := c, waitingqueue := q } id (.block b)) cs
  have hmem : ∀ call ∈ s.todo, call ∈ (DvdSys.push (DvdSys.accept { s with core := c, waitingqueue := q } id (.block b)) cs).todo :=
    fun _ hm => DvdSys.push_mem (DvdSys.accept { s with core := c, waitingqueue := q } id (.block b)) cs hm
  have hcode := DvdSys.push_user (DvdSys.accept { s with core := c, waitingqueue := q } id (.block b)) cs
  obtain ⟨back, hback, htodo⟩ := DvdSys.push_todo (DvdSys.accept { s with core := c, waitingqueue := q } id (.block b)) cs
  obtain ⟨todo, user, heq⟩ := DvdSys.push_eq (DvdSys.accept { s with core := c, waitingqueue := q } id (.block b)) cs
  rw [heq] at hinv hhist husers' hans hask hmem hcode htodo ⊢
  dsimp only at husers' hans hask hmem hcode htodo
  subst hcs
  have husers'' : dvdUsers todo = [b] := by
    rw [husers']
    show b :: dvdUsers calls ++ dvdUsers s.todo = [b]
    rw [hcallers, husers]
    rfl
  constructor
  case inv => exact hinv
  case numbers => exact h.numbers.congr hhist
  case front =>
    refine .inr ⟨b, _, _, .inl htodo, ?_⟩
    have hu := husers''
    rw [htodo] at hu
    exact (List.cons.inj hu).2
  case code => exact fun hu => by cases hcode hu
  case held =>
    intro x hx
    show (c.blocks x).state = _ ∨ c.executing = _ ∨ x ∈ dvdUsers todo
    rw [husers'']
    by_cases hxb : x = b
    · exact .inr (.inr (List.mem_singleton.2 hxb))
    · rw [hne x hxb]
      rcases h.held x hx with hst | hx' | hm
      · exact .inl hst
      · exact .inr (.inl ((hexec x).2 ⟨hx', hxb⟩))
      · rw [husers] at hm
        cases hm
  case old => exact hold
  case flag =>
    intro hc
    have hc' : s.core.canceling = true := hcan.symm.trans hc
    rcases h.flag hc' with ⟨x, k, hk, hx, hid', hn⟩ | ⟨e, hm⟩
    · have hxb : x ≠ b := by
        rintro rfl
        exact hflag hc' hx
      exact .inl ⟨x, k, List.mem_append_left _ hk, (hexec x).2 ⟨hx, hxb⟩, hid'.trans htold.symm, hn⟩
    · exact .inr ⟨e, hmem _ hm⟩
  case cover =>
    intro hc x hx
    obtain ⟨hx', hxb⟩ := (hexec x).1 hx
    show (c.blocks x).state.atCover = false
    rw [hne x hxb]
    exact h.cover (hcan.symm.trans hc) x hx'
  case unanswered =>
    intro k hk i hi hnot
    rcases List.mem_append.1 hk with hk | hk
    · rcases h.unanswered k hk i hi hnot with ⟨hc, ht, x, hx, hn⟩ | hpast
      · have hxb : x ≠ b := by
          rintro rfl
          exact hflag hc hx
        exact .inl ⟨hcan.trans hc, htold.trans ht, x, (hexec x).2 ⟨hx, hxb⟩, hn⟩
      · exact .inr fun x hx hp => Bool.noConfusion ((hpast.ended husers x hx).symm.trans hp)
    · obtain rfl := List.mem_singleton.1 hk
      refine .inr fun x hx _ => ?_
      show x ∈ dvdUsers todo
      rw [husers'', DvdExec.block.inj hx.1]
      exact List.mem_singleton_self x
  case after =>
    intro k hk i hi hm
    rcases List.mem_append.1 hk with hk | hk
    · exact h.after k hk i hi hm
    · obtain rfl := List.mem_singleton.1 hk
      exact absurd hm (h.unasked hid i hi)
  case calls =>
    intro x hx _
    rw [show dvdUsers _ = [b] from husers''] at hx
    obtain rfl := List.mem_singleton.1 hx
    exact ⟨_, List.mem_append_right _ List.mem_cons_self, rfl, rfl, hpend⟩
  case done =>
    intro d hd hst
    obtain ⟨k, hk, hn⟩ := h.done d hd hst
    exact ⟨k, List.mem_append_left _ hk, hn⟩
  case ids =>
    intro i
    have hcount := h.ids i
    have hkept : c.kept = s.core.kept := by
      unfold DvdCore.kept
      rw [hcan, htold]
    have hnew : dvdAnswers s.core.cancelcallback (.user (.block b) DVD_ERROR_CANCELED :: .cb id (.block b) :: calls) = id.toList := by
      cases id with
      | none => exact hcalls _
      | some j => exact congrArg (j :: ·) (hcalls _)
    show (s.accept id (.block b)).asked.count i = s.cancelled.count i + (dvdAnswers c.cancelcallback todo).count i + c.kept.count i
    rw [hasked, hans, htold, hkept, hnew, List.count_append]
    show _ = _ + (_ + (dvdAnswers s.core.cancelcallback s.todo).count i) + _
    omega
  case fresh =>
    intro i
    show (s.accept id (.block b)).asked.count i + (dvdAsks todo).count i ≤ 1
    rw [hask, show dvdAsks (.user (.block b) DVD_ERROR_CANCELED :: .cb id (.block b) :: calls) = dvdAsks calls from rfl, hasks]
    exact hfresh i

theorem DvdTold.cancelWaiting (h : DvdTold s) (hno : dvdNoLow s.todo) (husers : dvdUsers s.todo = []) (hid : s.unasked id)
    (hst : (s.core.blocks b).state = .WAITING) : DvdTold (s.cancelWaiting b id) := by
  have hexec : s.core.executing ≠ .block b := fun e => h.inv.notWaiting e hst
  have hinv := h.inv.cancelWaiting hno hst id
  unfold DvdSys.cancelWaiting at hinv ⊢
  refine h.cancelled husers hid (h.inv.waiting b hst).1 ?_ ?_ ?_ (fun x => ?_) (fun _ => hexec) (fun _ => ?_) ?_ ?_ hinv
  case refine_4 =>
    refine (and_iff_left_of_imp fun e => ?_).symm
    rintro rfl
    exact hexec e
  all_goals rfl

theorem DvdTold.cancelCover (h : DvdTold s) (hno : dvdNoLow s.todo) (husers : dvdUsers s.todo = []) (hid : s.unasked id)
    (hst : (s.core.blocks b).state.atCover = true) : DvdTold (s.cancelCover b id) := by
  have hexec := h.inv.cover b hst
  have hinv := h.inv.cancelCover hno hst id
  unfold DvdSys.cancelCover at hinv ⊢
  refine h.cancelled husers hid (h.inv.runs b hexec).1 ?_ ?_ ?_ (fun x => ?_) (fun hc _ => ?_) (fun _ => ?_) ?_ ?_ hinv
  case refine_4 =>
    refine ⟨(fun e => by cases (show DvdExec.dummy = DvdExec.block x from e)), fun hx => absurd ?_ hx.2⟩
    exact DvdExec.block.inj (hx.1.symm.trans hexec)
  case refine_5 => exact Bool.noConfusion ((h.cover hc b hexec).symm.trans hst)
  all_goals rfl

/-- A cancel hits what it names: a block whose state is that of the executing one executes, or a cancel is kept already; one that was
ignored, or has failed and is not called back yet, is cancelled without a callback. -/
def DvdSys.hits (s : DvdSys B) (e : DvdExec B) (id : Option Nat) : Prop :=
  ((s.blockOf e).state = .BUSY ∨ (s.blockOf e).state = .COVER_CLOSED ∧ dvdOfDisk s.core.currcmd = false →
      s.core.executing = e ∨ s.core.canceling = true) ∧
    ((s.blockOf e).state = .IGNORED ∨ (s.blockOf e).state = .FATAL_ERROR ∧ s.goingOf e = true → id = none)

/-- What a cancel of all blocks must meet when it comes to the block that executes. -/
def DvdCall.hits (s : DvdSys B) : DvdCall B → Prop
  | .cancelAll id => s.checkwaitingqueue = false → s.hits s.core.executing id
  | _ => True

/-- What a step must meet for a cancel to concern the block that it names; one that waits is in a queue. -/
def dvdHits (s : DvdSys B) : DvdEvent B → Prop
  | .cancel b id => s.hits (.block b) id ∧ ((s.core.blocks b).state = .WAITING → ∃ p, b ∈ s.waitingqueue p)
  | .run => ∀ call ∈ s.todo.head?, call.hits s
  | _ => True

instance (s : DvdSys B) (e : DvdExec B) (id : Option Nat) : Decidable (s.hits e id) := inferInstanceAs (Decidable ((_ → _) ∧ (_ → _)))

instance (s : DvdSys B) : (call : DvdCall B) → Decidable (call.hits s)
  | .cancelAll _ => inferInstanceAs (Decidable (_ → _))
  | .clearwaitingqueue | .user _ _ | .cancelcb _ | .errorcancel _ | .mountcb _ | .stateready | .low _ _ | .resumed | .unbreak | .cb _ _
  | .resume | .back => inferInstanceAs (Decidable True)

instance (s : DvdSys B) : (e : DvdEvent B) → Decidable (dvdHits s e)
  | .cancel _ _ => inferInstanceAs (Decidable (_ ∧ (_ → _)))
  | .run => inferInstanceAs (Decidable (∀ call ∈ s.todo.head?, _))
  | .issue _ _ _ | .pause | .resume | .cancelAll _ | .interrupt _ _ | .cover _ | .timeout _ => inferInstanceAs (Decidable True)

theorem DvdSteady.ofDisk (h : DvdSteady clean b c) (hst : (c.blocks b).state = .COVER_CLOSED) : dvdOfDisk c.currcmd = false := by
  cases h with
  | waits _ hw =>
    rw [hw.currcmd]
    exact DvdWaiting.disk hw hst
  | stuck hin _ =>
    rw [hin.currcmd]
    exact hin.disk hst

theorem DvdTold.notPending (h : DvdTold s) (hno : dvdNoLow s.todo) (husers : dvdUsers s.todo = []) (hwait : (s.core.blocks b).state ≠ .WAITING)
    (hexec : s.core.executing ≠ .block b ∨ (s.core.blocks b).state.live = false) : s.pending b = false := by
  refine Bool.eq_false_iff.2 fun hp => ?_
  rcases h.held b hp with hst | hx | hm
  · exact hwait hst
  · exact Bool.noConfusion ((h.inv.steady hno hx).live.symm.trans (hexec.resolve_left fun hne => hne hx))
  · rw [husers] at hm
    cases hm

/-- **A cancel** is kept for the block that it names, or answered after that has ended. -/
theorem DvdTold.cancelAsync (h : DvdTold s) (hno : dvdNoLow s.todo) (husers : dvdUsers s.todo = []) (hid : s.unasked id)
    (hits : s.hits e id) : DvdTold (s.cancelAsync e id) := by
  have hblock : (s.blockOf e).state ≠ .END → ∃ b, e = .block b := by
    intro hne
    cases e with
    | block b => exact ⟨b, rfl⟩
    | null => exact absurd h.inv.dummy hne
    | dummy => exact absurd h.inv.dummy hne
  rcases h.inv.cancelAsync_cases hno e id with ⟨hst, heq⟩ | ⟨hst, heq⟩ | ⟨hst, brk, heq⟩ | ⟨b, rfl, hst, heq⟩ | ⟨b, rfl, hst, heq⟩
  · rw [heq]
    refine h.answered hno husers hid ?_ (fun call hm => by rw [List.mem_singleton.1 hm]; rfl) rfl fun told => by cases id <;> rfl
    cases hgoing : s.goingOf e with
    | false => exact .inr rfl
    | true =>
      left
      cases e with
      | block b =>
        have hpend : s.pending b = true := hgoing
        have hover := h.notPending (b := b) hno husers
        rcases hst with hst | hst | hst | ⟨hst, hd⟩
        · exact hits.2 (.inr ⟨hst, hgoing⟩)
        · exact Bool.noConfusion ((hover (by rw [show (s.core.blocks b).state = _ from hst]; decide)
            (.inr (by rw [show (s.core.blocks b).state = _ from hst]; rfl))).symm.trans hpend)
        · exact Bool.noConfusion ((hover (by rw [show (s.core.blocks b).state = _ from hst]; decide)
            (.inr (by rw [show (s.core.blocks b).state = _ from hst]; rfl))).symm.trans hpend)
        · refine Bool.noConfusion ((hover (by rw [show (s.core.blocks b).state = _ from hst]; decide) (.inl fun hexec => ?_)).symm.trans hpend)
          exact Bool.noConfusion (((h.inv.steady hno hexec).ofDisk hst).symm.trans hd)
      | null => cases hgoing
      | dummy => cases hgoing
  · rw [heq]
    obtain rfl := hits.2 (.inl hst)
    show DvdTold ((s.accept none e).push [])
    exact h.answered hno husers hid (.inl rfl) (fun call hm => by cases hm) rfl fun _ => rfl
  · rw [heq]
    obtain ⟨b, rfl⟩ := hblock fun hend => by rcases hst with hst | ⟨hst, -⟩ <;> cases hst.symm.trans hend
    refine h.cancelFlag hno husers hid (hits.1 hst) ?_ brk
    rcases hst with hst | ⟨hst, -⟩
    · rw [show (s.core.blocks b).state = _ from hst]
      rfl
    · rw [show (s.core.blocks b).state = _ from hst]
      rfl
  · rw [heq]
    exact h.cancelWaiting hno husers hid hst
  · rw [heq]
    exact h.cancelCover hno husers hid hst

/-! ### What is left is called -/

theorem dvdFront_head (h : dvdFront (call :: calls)) (hcall : ∀ b result, call ≠ .user (.block b) result)
    (hclear : call ≠ .clearwaitingqueue) : dvdUsers (call :: calls) = [] := by
  rcases h with h | ⟨b, result, rest, e | e, -⟩
  · exact h
  · exact absurd (List.cons.inj e).1 (hcall b result)
  · exact absurd (List.cons.inj e).1 hclear

theorem DvdTold.settle (h : DvdTold s) (htodo : s.todo = call :: rest) (hcall : call.passes = true)
    (hclear : call ≠ .clearwaitingqueue) {can user : Bool} {cancelled : List Nat} (hlist : cancelled = s.cancelled ++ id.toList)
    (hinv : DvdInv False { s with core := { s.core with canceling := can }, todo := rest, user := user, cancelled := cancelled })
    (hcan : can = s.core.canceling ∧ (∀ e, call ≠ .errorcancel e) ∨ can = false ∧ s.core.executing = .dummy)
    (hanswers : ∀ i, (dvdAnswers s.core.cancelcallback [call]).count i + s.core.kept.count i = id.toList.count i + (DvdCore.kept { s.core with canceling := can }).count i)
    (honce : ∀ i, id = some i → s.core.canceling = true → s.core.cancelcallback = some i → ∀ b, s.core.executing ≠ .block b) :
    DvdTold { s with core := { s.core with canceling := can }, todo := rest, user := user, cancelled := cancelled } := by
  have hfront := h.front
  rw [htodo] at hfront
  have husers' := dvdFront_tail hfront hcall hclear
  have husers : dvdUsers s.todo = [] := by rw [htodo, dvdUsers_cons_passes hcall, husers']
  have hcan' : can = true → s.core.canceling = true := by
    intro e
    rcases hcan with ⟨hc, -⟩ | ⟨hc, -⟩
    · exact hc.symm.trans e
    · cases hc.symm.trans e
  have hmem : ∀ {i}, i ∈ cancelled ↔ i ∈ s.cancelled ∨ id = some i := by
    intro i
    rw [hlist, List.mem_append]
    exact or_congr_right Option.mem_toList
  constructor
  case inv => exact hinv
  case numbers => exact h.numbers.congr rfl
  case front => exact dvdFront_of_nil husers'
  case code => exact fun _ => husers'
  case held =>
    intro x hx
    have hx' := h.held x hx
    rw [husers] at hx'
    show _ ∨ _ ∨ x ∈ dvdUsers rest
    rw [husers']
    exact hx'
  case old => exact h.old
  case flag =>
    intro hc
    refine (h.flag (hcan' hc)).imp_right fun ⟨e, hm⟩ => ⟨e, ?_⟩
    rcases hcan with ⟨-, hne⟩ | ⟨hfalse, -⟩
    · rw [htodo] at hm
      exact (List.mem_cons.1 hm).resolve_left fun e' => hne e e'.symm
    · cases hfalse.symm.trans hc
  case cover => exact fun hc => h.cover (hcan' hc)
  case unanswered =>
    intro k hk i hi hnot
    rcases h.unanswered k hk i hi fun hm => hnot (hmem.2 (.inl hm)) with ⟨hc, ht, b, hexec, hn⟩ | hpast
    · rcases hcan with ⟨he, -⟩ | ⟨-, hdummy⟩
      · exact .inl ⟨he.trans hc, ht, b, hexec, hn⟩
      · cases hdummy.symm.trans hexec
    · exact .inr fun x hx hp => Bool.noConfusion ((hpast.ended husers x hx).symm.trans hp)
  case after =>
    intro k hk i hi hm
    by_cases hold : i ∈ s.cancelled
    · exact h.after k hk i hi hold
    · rcases h.unanswered k hk i hi hold with ⟨hc, ht, b, hexec, hn⟩ | hpast
      · exact absurd hexec (honce i ((hmem.1 hm).resolve_left hold) hc ht b)
      · exact hpast.ended husers
  case calls =>
    intro x hx
    rw [show dvdUsers _ = [] from husers'] at hx
    cases hx
  case done => exact h.done
  case ids =>
    intro i
    have hcount := h.ids i
    have hsplit : (dvdAnswers s.core.cancelcallback s.todo).count i =
        (dvdAnswers s.core.cancelcallback [call]).count i + (dvdAnswers s.core.cancelcallback rest).count i := by
      rw [htodo, ← List.singleton_append, dvdAnswers_append, List.count_append]
    have hthis := hanswers i
    have happ : cancelled.count i = s.cancelled.count i + id.toList.count i := by rw [hlist, List.count_append]
    show s.asked.count i = cancelled.count i + (dvdAnswers s.core.cancelcallback rest).count i +
      (DvdCore.kept { s.core with canceling := can }).count i
    omega
  case fresh =>
    intro i
    have hle : (dvdAsks rest).count i ≤ (dvdAsks s.todo).count i := by
      rw [htodo, ← List.singleton_append, dvdAsks_append, List.count_append]
      exact Nat.le_add_left ..
    exact Nat.le_trans (Nat.add_le_add_left hle _) (h.fresh i)

theorem DvdTold.answer (h : DvdTold s) (htodo : s.todo = call :: rest) (hcall : call.passes = true)
    (hclear : call ≠ .clearwaitingqueue) (herror : ∀ e, call ≠ .errorcancel e) (hid : call.answers s.core.cancelcallback = id) :
    DvdTold ((s.popped rest).answer id) := by
  have hinv := (h.inv.popped htodo hcall).answer (h.inv.tail_noLow htodo) id
  have hanswers : dvdAnswers s.core.cancelcallback [call] = id.toList := by
    unfold dvdAnswers
    rw [← hid]
    cases hc : call.answers s.core.cancelcallback with
    | none => exact List.filterMap_cons_none hc
    | some j => exact List.filterMap_cons_some hc
  -- one that is kept still is not answered
  have honce : ∀ i, id = some i → s.core.canceling = true → s.core.cancelcallback = some i → ∀ b, s.core.executing ≠ .block b := by
    intro i hi hc ht b _
    have hcount := h.ids i
    have hone := h.fresh i
    have hkept : s.core.kept = [i] := by
      unfold DvdCore.kept
      rw [if_pos hc, ht]
      rfl
    have hsplit : (dvdAnswers s.core.cancelcallback s.todo).count i =
        (dvdAnswers s.core.cancelcallback [call]).count i + (dvdAnswers s.core.cancelcallback rest).count i := by
      rw [htodo, ← List.singleton_append, dvdAnswers_append, List.count_append]
    rw [hanswers, hi] at hsplit
    rw [hkept] at hcount
    have hself : [i].count i = 1 := List.count_singleton_self
    have hself' : (some i).toList.count i = 1 := List.count_singleton_self
    omega
  cases id with
  | none =>
    exact h.settle htodo hcall hclear (List.append_nil _).symm hinv (.inl ⟨rfl, herror⟩) (fun i => by rw [hanswers]) honce
  | some j =>
    exact h.settle htodo hcall hclear rfl hinv (.inl ⟨rfl, herror⟩) (fun i => by rw [hanswers]) honce

theorem DvdTold.errorcancel (h : DvdTold s) (htodo : s.todo = .errorcancel e :: rest) :
    DvdTold ((s.popped rest).runCall (.errorcancel e)) := by
  have hinv := h.inv.errorcancel htodo
  have hdummy : s.core.executing = .dummy := by
    by_contra hne
    exact (h.inv.noAnswers hne e).1 (by rw [htodo]; exact List.mem_cons_self)
  have hne : ∀ b, s.core.executing ≠ .block b := fun b hb => by cases hdummy.symm.trans hb
  unfold DvdSys.runCall at hinv ⊢
  dsimp only at hinv ⊢
  by_cases hcan : s.core.canceling = true
  · rw [if_pos (show (s.popped rest).core.canceling = true from hcan)] at hinv ⊢
    have hkept : s.core.kept = s.core.cancelcallback.toList := if_pos hcan
    have hanswers : ∀ i, (dvdAnswers s.core.cancelcallback [.errorcancel e]).count i + s.core.kept.count i =
        s.core.cancelcallback.toList.count i + (DvdCore.kept { s.core with canceling := false }).count i := by
      intro i
      rw [hkept]
      exact Nat.add_comm ..
    show DvdTold (DvdSys.answer { s.popped rest with core := { s.core with canceling := false } } s.core.cancelcallback)
    replace hinv : DvdInv False (DvdSys.answer { s.popped rest with core := { s.core with canceling := false } } s.core.cancelcallback) := hinv
    generalize s.core.cancelcallback = id at hinv hanswers ⊢
    cases id with
    | none =>
      exact h.settle htodo rfl (fun e => by cases e) (List.append_nil _).symm hinv (.inr ⟨rfl, hdummy⟩) hanswers fun _ _ _ _ => hne
    | some j => exact h.settle htodo rfl (fun e => by cases e) rfl hinv (.inr ⟨rfl, hdummy⟩) hanswers fun _ _ _ _ => hne
  · rw [if_neg (show ¬ (s.popped rest).core.canceling = true from hcan)] at hinv ⊢
    have hfalse : s.core.canceling = false := Bool.eq_false_iff.2 hcan
    have hsame : s.popped rest = { s with core := { s.core with canceling := false }, todo := rest, user := false, cancelled := s.cancelled } := by
      have hcore : s.core = { s.core with canceling := false } := by rw [← hfalse]
      exact congrArg (fun c => { s with core := c, todo := rest, user := false }) hcore
    have hlist : s.cancelled = s.cancelled ++ (none : Option Nat).toList := (List.append_nil _).symm
    rw [hsame] at hinv ⊢
    refine h.settle htodo rfl (fun e => by cases e) hlist hinv (.inr ⟨rfl, hdummy⟩) (fun i => ?_) fun _ _ _ _ => hne
    rw [show s.core.kept = [] from if_neg hcan]
    rfl

theorem DvdTold.calledBack (h : DvdTold s) {result : Int} (htodo : s.todo = .user (.block b) result :: rest) :
    DvdTold ((s.popped rest).calledBack b result) := by
  have hfront := h.front
  rw [htodo] at hfront
  have husers' := dvdFront_user hfront
  have husers : dvdUsers s.todo = [b] := by
    rw [htodo]
    exact congrArg (b :: ·) husers'
  have hmem : b ∈ dvdUsers s.todo := by
    rw [husers]
    exact List.mem_cons_self
  have hpend : ∀ x, ((s.popped rest).calledBack b result).pending x = true → x ≠ b ∧ s.pending x = true := by
    intro x hx
    have hxb : x ≠ b := by
      rintro rfl
      exact Bool.noConfusion ((Function.update_self ..).symm.trans hx)
    exact ⟨hxb, (Function.update_of_ne hxb ..).symm.trans hx⟩
  constructor
  case inv => exact h.inv.calledBack htodo
  case numbers => exact DvdNumbers.calledBack (s := s.popped rest) (h.numbers.congr rfl) (h.inv.called b hmem) result
  case front => exact dvdFront_of_nil husers'
  case code => exact fun _ => husers'
  case held =>
    intro x hx
    obtain ⟨hxb, hp⟩ := hpend x hx
    refine (h.held x hp).imp_right (Or.imp_right fun hm => ?_)
    rw [husers] at hm
    exact absurd (List.mem_singleton.1 hm) hxb
  case old => exact h.old
  case flag =>
    intro hc
    refine (h.flag hc).imp_right fun ⟨e, hm⟩ => ⟨e, ?_⟩
    rw [htodo] at hm
    exact (List.mem_cons.1 hm).resolve_left fun e' => by cases e'
  case cover => exact h.cover
  case unanswered =>
    intro k hk i hi hnot
    refine (h.unanswered k hk i hi hnot).imp_right fun hpast x hx hp => ?_
    obtain ⟨hxb, hp'⟩ := hpend x hp
    have hm := hpast x hx hp'
    rw [husers] at hm
    exact absurd (List.mem_singleton.1 hm) hxb
  case after =>
    intro k hk i hi hm x hx
    refine Bool.eq_false_iff.2 fun hp => ?_
    exact Bool.noConfusion ((h.after k hk i hi hm x hx).symm.trans (hpend x hp).2)
  case calls =>
    intro x hx
    have hx' : x ∈ dvdUsers rest := hx
    rw [husers'] at hx'
    cases hx'
  case done =>
    intro d hd hst
    rcases List.mem_append.1 hd with hd | hd
    · exact h.done d hd hst
    · obtain rfl := List.mem_singleton.1 hd
      exact h.calls b hmem hst
  case ids =>
    have hids := h.ids
    rw [htodo] at hids
    exact hids
  case fresh =>
    have hfresh := h.fresh
    rw [htodo] at hfresh
    exact hfresh

theorem DvdTold.passed (h : DvdTold s) (htodo : s.todo = call :: rest) (hcall : call.passes = true)
    (hclear : call ≠ .clearwaitingqueue) (hanswers : ∀ told, call.answers told = none) (herror : ∀ e, call ≠ .errorcancel e) :
    DvdTold (s.popped rest) ∧ dvdUsers rest = [] := by
  have hfront := h.front
  rw [htodo] at hfront
  have husers := dvdFront_tail hfront hcall hclear
  refine ⟨h.frame (h.inv.popped htodo hcall) rfl (fun _ => Iff.rfl) rfl rfl rfl rfl rfl ?_ (dvdFront_of_nil husers) fun _ => husers, husers⟩
  rw [htodo]
  exact .tail hcall hanswers herror

theorem DvdTold.cancelAll (h : DvdTold s) (htodo : s.todo = .cancelAll id :: rest)
    (hits : s.checkwaitingqueue = false → s.hits s.core.executing id) : DvdTold ((s.popped rest).runCall (.cancelAll id)) := by
  obtain ⟨hpop, husers⟩ := h.passed htodo rfl (fun e => by cases e) (fun _ => rfl) fun e e' => by cases e'
  have hno := h.inv.tail_noLow htodo
  have hid : (s.popped rest).unasked id := by
    rintro i rfl
    have hone := h.fresh i
    have hask : (dvdAsks s.todo).count i = (dvdAsks rest).count i + 1 := by
      rw [htodo]
      exact List.count_cons_self
    show s.asked.count i + (dvdAsks rest).count i = 0
    omega
  rcases (s.popped rest).cancelAll_cases id with ⟨p, b, q, hq, heq⟩ | ⟨-, heq⟩ | ⟨hempty, heq⟩
  · rw [heq]
    have hno' : dvdNoLow (DvdCall.cancelAll id :: rest) := fun cb r hm => by
      rcases List.mem_cons.1 hm with e | hm
      · cases e
      · exact hno cb r hm
    have hwait : (s.core.blocks b).state = .WAITING := h.inv.queued p b (by rw [show s.waitingqueue p = _ from hq]; exact List.mem_cons_self)
    have hinv : DvdInv False { s.popped rest with waitingqueue := Function.update s.waitingqueue p q, todo := .cancelAll id :: rest } :=
      hpop.inv.frame hno hno' (.refl h.inv.resume) rfl (dvdQueue_update hq) rfl rfl rfl hpop.inv.errors hpop.inv.pausing
    have htold : DvdTold { s.popped rest with waitingqueue := Function.update s.waitingqueue p q, todo := .cancelAll id :: rest } := by
      refine h.frame hinv rfl (fun _ => Iff.rfl) rfl rfl rfl rfl rfl ?_ (dvdFront_of_nil husers) fun _ => husers
      rw [htodo]
      exact .refl _
    refine htold.cancelAsync hno' husers (fun i e => by cases e) ⟨fun hst => ?_, fun _ => rfl⟩
    rcases hst with hst | ⟨hst, -⟩
    · cases hwait.symm.trans hst
    · cases hwait.symm.trans hst
  · rw [heq]
    exact hpop.answered hno husers hid (.inr rfl) (fun call hm => by rw [List.mem_singleton.1 hm]; rfl) rfl fun told => by cases id <;> rfl
  · rw [heq]
    exact hpop.cancelAsync hno husers hid (hits (s.checkwaitingqueue_eq_false.2 hempty))

theorem DvdTold.asking (h : DvdTold s) (hno : dvdNoLow s.todo) (husers : dvdUsers s.todo = []) (hid : s.unasked id) :
    DvdTold (s.push [.cancelAll id, .resume]) := by
  have hplain : ∀ call ∈ [DvdCall.cancelAll (B := B) id, .resume], call.plain = true := fun call hm => by
    simp only [List.mem_cons, List.not_mem_nil, or_false] at hm
    rcases hm with rfl | rfl <;> rfl
  have hinv := h.inv.pushPlain hno hplain
  have hhist := s.push_history [.cancelAll id, .resume]
  have husers' := DvdSys.push_users (s := s) [.cancelAll id, .resume]
  have hans := s.push_answers [.cancelAll id, .resume]
  have hask := s.push_asks [.cancelAll id, .resume]
  have hmem : ∀ call ∈ s.todo, call ∈ (s.push [.cancelAll id, .resume]).todo := fun _ hm => s.push_mem _ hm
  obtain ⟨todo, user, heq⟩ := s.push_eq [.cancelAll id, .resume]
  rw [heq] at hinv hhist husers' hans hask hmem ⊢
  dsimp only at husers' hans hask hmem
  have hnil : dvdUsers todo = [] := husers'.trans husers
  refine h.same hinv rfl (fun _ => Iff.rfl) rfl rfl hhist rfl rfl ⟨husers', hans, fun e hm => hmem _ hm⟩ (dvdFront_of_nil hnil) (fun _ => hnil)
    fun i => ?_
  have hone := h.fresh i
  show s.asked.count i + (dvdAsks todo).count i ≤ 1
  rw [hask, List.count_append]
  cases id with
  | none => exact Nat.le_trans (Nat.le_of_eq (congrArg (_ + ·) (Nat.zero_add _))) hone
  | some j =>
    show s.asked.count i + ([j].count i + (dvdAsks s.todo).count i) ≤ 1
    by_cases hij : i = j
    · have hzero := hid j rfl
      rw [hij, List.count_singleton_self]
      omega
    · rw [List.count_eq_zero.2 fun hm => hij (List.mem_singleton.1 hm), Nat.zero_add]
      exact hone

theorem DvdTold.run (h : DvdTold s) (hlow : ∀ cb result rest, s.todo ≠ .low cb result :: rest) (hits : ∀ call ∈ s.todo.head?, call.hits s) :
    DvdTold s.run := by
  have hinv := h.inv.run False.elim hlow
  cases htodo : s.todo with
  | nil =>
    have hnext : s.run = { s with user := false } := by
      unfold DvdSys.run
      rw [htodo]
    rw [hnext] at hinv ⊢
    exact h.frame hinv rfl (fun _ => Iff.rfl) rfl rfl rfl rfl rfl (.refl _) h.front fun e => by cases e
  | cons call rest =>
    rw [DvdSys.run_eq htodo] at hinv ⊢
    have hno' := h.inv.tail_noLow htodo
    have hfront := h.front
    rw [htodo] at hfront
    have hpassed := h.passed htodo
    cases call with
    | clearwaitingqueue =>
      refine h.frame hinv rfl (fun _ => Iff.rfl) rfl rfl rfl rfl rfl ?_ (dvdFront_clear hfront) fun e => by cases e
      rw [htodo]
      exact .tail rfl (fun _ => rfl) fun e e' => by cases e'
    | user e result =>
      cases e with
      | block b => exact h.calledBack htodo
      | null => exact (hpassed rfl (fun e => by cases e) (fun _ => rfl) fun e e' => by cases e').1
      | dummy => exact (hpassed rfl (fun e => by cases e) (fun _ => rfl) fun e e' => by cases e').1
    | cancelcb e => exact h.answer htodo rfl (fun e => by cases e) (fun e e' => by cases e') rfl
    | errorcancel e => exact h.errorcancel htodo
    | cb id e => exact h.answer htodo rfl (fun e => by cases e) (fun e e' => by cases e') rfl
    | stateready =>
      obtain ⟨hdummy, -⟩ := h.inv.ready_dummy htodo
      have husers : dvdUsers rest = [] := dvdFront_head hfront (fun b result e => by cases e) fun e => by cases e
      refine DvdTold.stateready (h.frame (h.inv.ready htodo) rfl (fun x => ?_) rfl rfl rfl rfl rfl ?_ (dvdFront_of_nil husers)
        fun _ => husers) husers
      · exact ⟨(fun hx => by cases hx), fun hx => by cases hdummy.symm.trans hx⟩
      · rw [htodo]
        exact .ready
    | low cb result => exact absurd htodo (hlow cb result rest)
    | cancelAll id => exact h.cancelAll htodo (hits (.cancelAll id) (by rw [htodo]; rfl))
    | resume =>
      obtain ⟨hpop, husers⟩ := hpassed rfl (fun e => by cases e) (fun _ => rfl) fun e e' => by cases e'
      exact hpop.resumes hno' husers
    | mountcb e =>
      obtain ⟨hpop, husers⟩ := hpassed rfl (fun e => by cases e) (fun _ => rfl) fun e e' => by cases e'
      exact hpop.frame hinv rfl (fun _ => Iff.rfl) rfl rfl rfl rfl rfl (.refl _) hpop.front fun _ => husers
    | resumed =>
      obtain ⟨hpop, husers⟩ := hpassed rfl (fun e => by cases e) (fun _ => rfl) fun e e' => by cases e'
      exact hpop.frame hinv rfl (fun _ => Iff.rfl) rfl rfl rfl rfl rfl (.refl _) hpop.front fun _ => husers
    | unbreak =>
      obtain ⟨hpop, husers⟩ := hpassed rfl (fun e => by cases e) (fun _ => rfl) fun e e' => by cases e'
      exact hpop.frame hinv rfl (fun _ => Iff.rfl) rfl rfl rfl rfl rfl (.refl _) hpop.front fun _ => husers
    | back =>
      obtain ⟨hpop, husers⟩ := hpassed rfl (fun e => by cases e) (fun _ => rfl) fun e e' => by cases e'
      exact hpop.frame hinv rfl (fun _ => Iff.rfl) rfl rfl rfl rfl rfl (.refl _) hpop.front fun _ => husers

theorem DvdSys.unasked_of_fresh (h : dvdFreshId s id) : s.unasked id := by
  intro i hi
  obtain ⟨hasked, htodo⟩ := h i (by rw [hi]; rfl)
  have hcount : s.asked.count i = 0 := by
    refine List.count_eq_zero.2 fun hm => hasked ?_
    obtain ⟨k, hk, hki⟩ := List.mem_filterMap.1 hm
    exact List.mem_map.2 ⟨k, hk, hki⟩
  have hasks : (dvdAsks s.todo).count i = 0 := by
    refine List.count_eq_zero.2 fun hm => htodo ?_
    obtain ⟨call, hcall, hi⟩ := List.mem_filterMap.1 hm
    cases call with
    | cancelAll id =>
      obtain rfl : id = some i := hi
      exact hcall
    | _ => cases hi
  rw [hcount, hasks]

/-- **Every step** in which a cancel hits what it names, and no block leaves one behind, keeps what is told. -/
theorem DvdTold.next (h : DvdTold s) {e : DvdEvent B} (he : dvdGuard s e) (hclean : dvdEndsClean s e) (hits : dvdHits s e) :
    DvdTold (dvdNext s e) := by
  have hturned : dvdUsers s.todo = [] → e.turns s → DvdTold (dvdNext s e) := fun husers hturns =>
    h.of_turned husers (h.inv.turned he hturns False.elim fun _ => hclean)
  cases e with
  | issue prio b blk => exact h.issuecommand he.1 he.2.1 ⟨he.2.2.1, he.2.2.2.1⟩ prio
  | pause => exact h.pause (h.inv.noLow he)
  | resume => exact h.resumes (h.inv.noLow he) (h.users he)
  | cancel b id => exact h.cancelAsync (h.inv.noLow he.1) (h.users he.1) (s.unasked_of_fresh he.2) hits.1
  | cancelAll id =>
    have hno := h.inv.noLow he.1
    exact (h.pause hno).asking hno (h.users he.1) (s.unasked_of_fresh he.2)
  | run =>
    by_cases hlow : ∃ cb result rest, s.todo = .low cb result :: rest
    · refine hturned ?_ hlow
      obtain ⟨cb, result, rest, htodo⟩ := hlow
      have hfront := h.front
      rw [htodo] at hfront ⊢
      exact dvdFront_head hfront (fun b result e => by cases e) fun e => by cases e
    · exact h.run (fun cb result rest e => hlow ⟨cb, result, rest, e⟩) hits
  | _ => exact hturned (h.users (.inl he.1)) trivial

theorem dvdTold_init (drive : DvdDrive) : DvdTold (dvdInit (B := B) drive) where
  inv := dvdInv_init drive
  numbers := dvdNumbers_init drive
  front := .inl rfl
  code := fun _ => rfl
  held := fun x hx => by cases hx
  old := fun k hk => by cases hk
  flag := fun hc => by cases hc
  cover := fun hc => by cases hc
  unanswered := fun k hk => by cases hk
  after := fun k hk => by cases hk
  calls := fun x hx => by cases hx
  done := fun d hd => by cases hd
  ids := fun _ => rfl
  fresh := fun _ => Nat.zero_le 1

end Told

/-! ## Each cancel is answered once -/

/-- A block is completed as cancelled only if a cancel named it while it was not completed.  Each cancel that returned 1 is answered once,
after the block that it named is completed; between events it has been, or that block executes still. -/
structure DvdCancelled (s : DvdSys B) : Prop where
  only : ∀ d ∈ s.done, d.blk.state = .CANCELED → ∃ c ∈ s.cancels, c.names d.block d.number
  once : s.cancelled.Nodup
  asked : ∀ i ∈ s.cancelled, ∃ c ∈ s.cancels, c.id = some i
  after : ∀ c ∈ s.cancels, ∀ i, c.id = some i → i ∈ s.cancelled → s.ended c
  answered : s.idle = true → ∀ c ∈ s.cancels, ∀ i, c.id = some i →
    i ∈ s.cancelled ∨ ∃ b, s.core.executing = .block b ∧ c.names b (s.number b)

theorem filterMap_inj_of_count {α : Type} {f : α → Option Nat} {l : List α} {i : Nat} (h : (l.filterMap f).count i ≤ 1) {x y : α} (hx : x ∈ l)
    (hy : y ∈ l) (hfx : f x = some i) (hfy : f y = some i) : x = y := by
  induction l with
  | nil => cases hx
  | cons z l ih =>
    have hmem : ∀ w ∈ l, f w = some i → 1 ≤ (l.filterMap f).count i := fun w hw hfw =>
      List.count_pos_iff.2 (List.mem_filterMap.2 ⟨w, hw, hfw⟩)
    -- one before the others would be a second
    have hhead : f z = some i → ∀ w ∈ l, f w ≠ some i := by
      intro hz w hw hfw
      rw [List.filterMap_cons_some hz, List.count_cons_self] at h
      exact absurd (hmem w hw hfw) (by omega)
    rcases List.mem_cons.1 hx with hxz | hx <;> rcases List.mem_cons.1 hy with hyz | hy
    · rw [hxz, hyz]
    · exact absurd hfy (hhead (hxz ▸ hfx) y hy)
    · exact absurd hfx (hhead (hyz ▸ hfy) x hx)
    · refine ih (Nat.le_trans ?_ h) hx hy
      exact ((List.sublist_cons_self z l).filterMap f).count_le i

theorem DvdTold.dvdCancelled {s : DvdSys B} (h : DvdTold s) : DvdCancelled s where
  only := h.done
  once := List.nodup_iff_count_le_one.2 fun i => by
    have hcount := h.ids i
    have hone := h.fresh i
    omega
  asked i hi := by
    have hpos := List.count_pos_iff.2 hi
    have hcount := h.ids i
    exact List.mem_filterMap.1 (List.count_pos_iff.1 (show 0 < s.asked.count i by omega))
  after := h.after
  answered hi c hc i hid := by
    have hnil : s.todo = [] := by
      unfold DvdSys.idle at hi
      rw [Bool.and_eq_true] at hi
      exact List.isEmpty_iff.1 hi.1
    refine or_iff_not_imp_left.2 fun hnot => ?_
    have hcount := h.ids i
    have hone := h.fresh i
    have hpos : 0 < s.asked.count i := List.count_pos_iff.2 (List.mem_filterMap.2 ⟨c, hc, hid⟩)
    have hzero : s.cancelled.count i = 0 := List.count_eq_zero.2 hnot
    have hanswers : (dvdAnswers s.core.cancelcallback s.todo).count i = 0 := by
      rw [hnil]
      rfl
    -- it is the one that the engine keeps
    have hkept : i ∈ s.core.kept := List.count_pos_iff.1 (by omega)
    have hcan : s.core.canceling = true ∧ s.core.cancelcallback = some i := by
      unfold DvdCore.kept at hkept
      split at hkept
      case isTrue hcan => exact ⟨hcan, Option.mem_toList.1 hkept⟩
      case isFalse => cases hkept
    rcases h.flag hcan.1 with ⟨b, k, hk, hexec, hkid, hn⟩ | ⟨e, hm⟩
    · obtain rfl : c = k := filterMap_inj_of_count (f := DvdCancel.id) (by unfold DvdSys.asked at hone; omega) hc hk hid (hkid.trans hcan.2)
      exact ⟨b, hexec, hn⟩
    · rw [hnil] at hm
      cases hm

/-- A step in which a block leaves no cancel behind, and a cancel hits the block that it names. -/
def dvdTargets (s : DvdSys B) (e : DvdEvent B) : Prop := dvdEndsClean s e ∧ dvdHits s e

instance (s : DvdSys B) (e : DvdEvent B) : Decidable (dvdTargets s e) := inferInstanceAs (Decidable (_ ∧ _))

/-- **Cancels hit the blocks that they name**, and are answered once. -/
theorem dvd_cancel_targets (drive : DvdDrive) {es : List (DvdEvent B)} (hl : (dvdSystem.restrict dvdTargets).Legal (dvdInit (B := B) drive) es) :
    DvdCancelled (dvdSystem.run (dvdInit drive) es) := by
  have hstep : ∀ (s : DvdSys B) e, DvdTold s → (dvdSystem.restrict dvdTargets).enabled s e → DvdTold (dvdNext s e) :=
    fun s e hs he => hs.next he.1 he.2.1 he.2.2
  exact (hl.invariant hstep (dvdTold_init drive)).dvdCancelled

/-- The first read is cancelled while it executes, the second while it waits. -/
theorem dvd_cancel_targets_two :
    DvdCancelled (dvdSystem.run (dvdInit (B := Bool) dvdDrive0) [.issue 2 false dvdRead0, .issue 2 true dvdRead0, .cancel true (some 0), .run,
      .run, .run, .cancel false (some 1), .interrupt false dvdRegs0, .run, .run, .run, .run]) :=
  dvd_cancel_targets dvdDrive0 (by decide)

/-- A command whose end does not look for a cancel (0x10) leaves it to the next block, which is completed as cancelled. -/
theorem dvd_cancel_hits_next :
    ¬ ∀ (drive : DvdDrive) (es : List (DvdEvent Bool)), dvdSystem.Legal (dvdInit drive) es → DvdCancelled (dvdSystem.run (dvdInit drive) es) := by
  intro h
  have honly := (h dvdDrive0 [.issue 2 false { dvdRead0 with cmd := 0x10 }, .cancel false (some 0), .interrupt false dvdRegs0, .run, .run, .run,
    .issue 2 true dvdRead0, .interrupt false dvdRegs0, .run, .run, .run] (by decide)).only
  exact absurd honly (by decide)

end Libogc
