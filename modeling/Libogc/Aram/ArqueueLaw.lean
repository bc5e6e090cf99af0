import Libogc.Aram.ArqueueRuns
/-!
# ArqueueLaw — what the ARAM queue transfers

Without cancellations, and whatever is posted when: the DMAs of each posting cover its range once and in order, its callback runs once,
after them, and postings of one priority are served in their order.  `ArqStage` says where each posting is (queued, in flight, called
back) and `ArqLog` what the DMAs started so far look like.
-/
namespace Libogc

open Links Runs

/-! ## The DMAs of a posting -/

/-- The DMAs started for a posting, and the bytes they cover. -/
def arqOf (log : List ArqXfer) (k : Nat) : List ArqXfer := log.filter (·.post = k)

def arqSent (log : List ArqXfer) (k : Nat) : Nat := ((arqOf log k).map (·.len)).sum

/-- A DMA that starts `off` bytes into a posting. -/
structure ArqPost.Piece (p : ArqPost) (off : Nat) (x : ArqXfer) : Prop where
  dir : x.dir = p.dir
  memaddr : x.memaddr = u32 (p.mramAddr + off)
  aramaddr : x.aramaddr = u32 (p.aramAddr + off)
  len : 0 < x.len

/-- **The DMAs are one after another**, from `off` on. -/
def ArqPost.Pieces (p : ArqPost) : Nat → List ArqXfer → Prop
  | _, [] => True
  | off, x :: xs => p.Piece off x ∧ p.Pieces (off + x.len) xs

theorem ArqPost.Pieces.append {p : ArqPost} {x : ArqXfer} : ∀ {xs : List ArqXfer} {off : Nat}, p.Pieces off xs →
    p.Piece (off + (xs.map (·.len)).sum) x → p.Pieces off (xs ++ [x])
  | [], _, _, hx => ⟨hx, trivial⟩
  | y :: ys, off, h, hx => by
    refine ⟨h.1, ArqPost.Pieces.append h.2 ?_⟩
    rw [List.map_cons, List.sum_cons, ← Nat.add_assoc] at hx
    exact hx

theorem arqOf_append (log : List ArqXfer) (x : ArqXfer) (k : Nat) :
    arqOf (log ++ [x]) k = if x.post = k then arqOf log k ++ [x] else arqOf log k := by
  unfold arqOf
  rw [List.filter_append]
  split
  · rename_i hk
    rw [List.filter_cons_of_pos (by simpa using hk), List.filter_nil]
  · rename_i hk
    rw [List.filter_cons_of_neg (by simpa using hk), List.filter_nil, List.append_nil]

theorem arqSent_append (log : List ArqXfer) (x : ArqXfer) (k : Nat) :
    arqSent (log ++ [x]) k = if x.post = k then arqSent log k + x.len else arqSent log k := by
  unfold arqSent
  rw [arqOf_append]
  split
  · rw [List.map_append, List.sum_append]
    rfl
  · rfl

/-- A posting of high priority. -/
def arqIsHi (posts : List ArqPost) (k : Nat) : Bool := posts[k]?.any (·.isHi)

theorem arqIsHi_append {posts : List ArqPost} {k : Nat} (hk : k < posts.length) (p : ArqPost) :
    arqIsHi (posts ++ [p]) k = arqIsHi posts k := by
  unfold arqIsHi
  rw [List.getElem?_append_left hk]

/-- **What the DMAs started so far look like.** -/
structure ArqLog (posts : List ArqPost) (log : List ArqXfer) : Prop where
  known : ∀ x ∈ log, x.post < posts.length
  pieces : ∀ k (p : ArqPost), posts[k]? = some p → p.Pieces 0 (arqOf log k)
  order : log.Pairwise fun x y => arqIsHi posts x.post = arqIsHi posts y.post → x.post ≤ y.post
  oldest : ∀ x ∈ log, ∀ k, x.oldest = some k → x.post = k

theorem ArqLog.start {posts : List ArqPost} {log : List ArqXfer} (h : ArqLog posts log) {x : ArqXfer} {p : ArqPost}
    (hp : posts[x.post]? = some p) (hx : p.Piece (arqSent log x.post) x)
    (hord : ∀ y ∈ log, arqIsHi posts y.post = arqIsHi posts x.post → y.post ≤ x.post) (hold : ∀ k, x.oldest = some k → x.post = k) :
    ArqLog posts (log ++ [x]) := by
  refine ⟨fun y hy => ?_, fun k q hk => ?_, ?_, fun y hy k hk => ?_⟩
  · rcases List.mem_append.1 hy with hy | hy
    · exact h.known y hy
    · rw [List.mem_singleton.1 hy]
      exact (List.getElem?_eq_some_iff.1 hp).1
  · rw [arqOf_append]
    split
    · rename_i he
      rw [he, hk] at hp
      obtain rfl : q = p := Option.some.inj hp
      refine (h.pieces k q hk).append ?_
      rw [Nat.zero_add, ← he]
      exact hx
    · exact h.pieces k q hk
  · rw [List.pairwise_append]
    refine ⟨h.order, List.pairwise_singleton _ _, fun y hy z hz => ?_⟩
    rw [List.mem_singleton.1 hz]
    exact hord y hy
  · rcases List.mem_append.1 hy with hy | hy
    · exact h.oldest y hy k hk
    · rw [List.mem_singleton.1 hy] at hk ⊢
      exact hold k hk

theorem ArqLog.post {posts : List ArqPost} {log : List ArqXfer} (h : ArqLog posts log) (p : ArqPost) : ArqLog (posts ++ [p]) log := by
  refine ⟨fun x hx => ?_, fun k q hk => ?_, ?_, h.oldest⟩
  · rw [List.length_append]
    exact Nat.lt_add_right _ (h.known x hx)
  · rcases lt_or_ge k posts.length with hlt | hge
    · rw [List.getElem?_append_left hlt] at hk
      exact h.pieces k q hk
    · -- nothing was started for the new posting
      have hnil : arqOf log k = [] := by
        refine List.filter_eq_nil_iff.2 fun x hx => ?_
        have := h.known x hx
        rw [decide_eq_true_eq]
        omega
      rw [hnil]
      trivial
  · refine h.order.imp_of_mem fun {x y} hx hy hxy => ?_
    rw [arqIsHi_append (h.known x hx), arqIsHi_append (h.known y hy)]
    exact hxy

/-! ## Where each posting is -/

section Stage
variable {R : Type} {s : ArqSys R} {his los : List R} {r : R}

/-- The requests in flight, or between two chunks: a request is not any more when its callback runs. -/
def ArqSys.activeHi (s : ArqSys R) : Option R := if s.inCallback = some .hi then none else s.pendingHi

def ArqSys.activeLo (s : ArqSys R) : Option R := if s.inCallback = some .lo then none else s.pendingLo

theorem activeHi_of_none (h : s.inCallback = none) : s.activeHi = s.pendingHi := by
  unfold ArqSys.activeHi
  rw [h, if_neg (by simp)]

theorem activeLo_of_none (h : s.inCallback = none) : s.activeLo = s.pendingLo := by
  unfold ArqSys.activeLo
  rw [h, if_neg (by simp)]

/-- The requests with a posting that is not done. -/
def ArqSys.live (s : ArqSys R) (his los : List R) : List R := s.activeHi.toList ++ (s.activeLo.toList ++ (his ++ los))

/-- **What is left of a posting**, in its request. -/
structure ArqRequest.Rest (q : ArqRequest) (p : ArqPost) (off : Nat) : Prop where
  dir : q.dir = p.dir
  mramAddr : q.mramAddr = u32 (p.mramAddr + off)
  aramAddr : q.aramAddr = u32 (p.aramAddr + off)
  len : 0 < q.len
  sum : off + q.len = p.len

/-- All of a posting's DMAs were started. -/
def ArqSys.Sent (s : ArqSys R) (k : Nat) : Prop := ∃ p, s.posts[k]? = some p ∧ arqSent s.log k = p.len

/-- **Where each posting is**: called back, in flight or queued, and only one of these; and its DMAs in the log. -/
structure ArqStage (s : ArqSys R) (his los : List R) : Prop where
  log : ArqLog s.posts s.log
  posts : ∀ p ∈ s.posts, 0 < p.len ∧ p.aramAddr < 2 ^ 32 ∧ p.mramAddr < 2 ^ 32
  perm : (s.called ++ (s.live his los).map s.post).Perm (List.range s.posts.length)
  rest : ∀ r, r ∈ his ∨ r ∈ los ∨ (s.activeLo = some r ∧ s.callbackLo = none) →
    ∃ p, s.posts[s.post r]? = some p ∧ (s.req r).Rest p (arqSent s.log (s.post r))
  sentHi : ∀ r, s.activeHi = some r → s.Sent (s.post r)
  sentLo : ∀ r, s.activeLo = some r → s.callbackLo.isSome → s.Sent (s.post r)
  sentCalled : ∀ k ∈ s.called, s.Sent k
  isHi : ∀ r ∈ his, arqIsHi s.posts (s.post r) = true
  isLo : ∀ r, r ∈ los ∨ s.activeLo = some r → arqIsHi s.posts (s.post r) = false
  orderHi : his.Pairwise fun u v => s.post u < s.post v
  orderLo : (s.activeLo.toList ++ los).Pairwise fun u v => s.post u < s.post v
  lastHi : ∀ x ∈ s.log, arqIsHi s.posts x.post = true → ∀ r ∈ his, x.post < s.post r
  lastLo : ∀ x ∈ s.log, arqIsHi s.posts x.post = false →
    (∀ r ∈ los, x.post < s.post r) ∧ ∀ r, s.activeLo = some r → x.post ≤ s.post r
  flight : s.busy ≠ 0 → ∀ x, s.log.getLast? = some x → x.post ∉ s.called
  chunk : 0 < s.chunkSize

theorem ArqStage.nodup (h : ArqStage s his los) : (s.called ++ (s.live his los).map s.post).Nodup :=
  h.perm.nodup_iff.2 List.nodup_range

/-- A posting that is not done is not called back yet, and is another request's at no time. -/
theorem ArqStage.not_called (h : ArqStage s his los) (hr : r ∈ s.live his los) : s.post r ∉ s.called := by
  intro hc
  exact (List.nodup_append.1 h.nodup).2.2 _ hc _ (List.mem_map_of_mem hr) rfl

theorem ArqStage.post_lt (h : ArqStage s his los) (hr : r ∈ s.live his los) : s.post r < s.posts.length := by
  rw [← List.mem_range, ← h.perm.mem_iff]
  exact List.mem_append_right _ (List.mem_map_of_mem hr)

theorem ArqStage.cases (h : ArqStage s his los) {k : Nat} (hk : k < s.posts.length) :
    k ∈ s.called ∨ ∃ r ∈ s.live his los, s.post r = k := by
  rw [← List.mem_range, ← h.perm.mem_iff, List.mem_append, List.mem_map] at hk
  exact hk

theorem mem_live {u : R} : u ∈ s.live his los ↔ s.activeHi = some u ∨ s.activeLo = some u ∨ u ∈ his ∨ u ∈ los := by
  unfold ArqSys.live
  simp only [List.mem_append, Option.mem_toList]

theorem ArqStage.logged (h : ArqStage s his los) {k : Nat} (hk : s.Sent k) : ∃ x ∈ s.log, x.post = k := by
  obtain ⟨p, hp, hs⟩ := hk
  have hpos := (h.posts p (List.mem_of_getElem? hp)).1
  by_contra hno
  have hnil : arqOf s.log k = [] := by
    refine List.filter_eq_nil_iff.2 fun x hx he => hno ⟨x, hx, by simpa using he⟩
  rw [arqSent, hnil] at hs
  simp at hs
  omega

/-- **The oldest posting of high priority that was not started** is the head of the high queue. -/
theorem ArqStage.oldest (h : ArqStage s his los) : arqOldest s.posts s.log = his.head?.map s.post := by
  have hmem : ∀ k, k < s.posts.length → ((arqIsHi s.posts k = true ∧ ∀ x ∈ s.log, x.post ≠ k) ↔ ∃ r ∈ his, s.post r = k) := by
    intro k hk
    constructor
    · rintro ⟨hi, hno⟩
      have hsent : ¬ s.Sent k := fun hs => by
        obtain ⟨x, hx, he⟩ := h.logged hs
        exact hno x hx he
      rcases h.cases hk with hc | ⟨r, hr, rfl⟩
      · exact absurd (h.sentCalled k hc) hsent
      · rcases mem_live.1 hr with hr | hr | hr | hr
        · exact absurd (h.sentHi r hr) hsent
        · rw [h.isLo r (.inr hr)] at hi
          cases hi
        · exact ⟨r, hr, rfl⟩
        · rw [h.isLo r (.inl hr)] at hi
          cases hi
    · rintro ⟨r, hr, rfl⟩
      refine ⟨h.isHi r hr, fun x hx he => ?_⟩
      have := h.lastHi x hx (by rw [he]; exact h.isHi r hr) r hr
      omega
  unfold arqOldest
  cases his with
  | nil =>
    rw [List.head?_nil, Option.map_none, List.find?_eq_none]
    intro k hk hp
    rw [decide_eq_true_eq] at hp
    obtain ⟨r, hr, -⟩ := (hmem k (List.mem_range.1 hk)).1 hp
    cases hr
  | cons r t =>
    have hlt := h.post_lt (mem_live.2 (.inr (.inr (.inl List.mem_cons_self))))
    rw [List.head?_cons, Option.map_some, List.find?_range_eq_some]
    refine ⟨?_, List.mem_range.2 hlt, fun j hj => ?_⟩
    · rw [decide_eq_true_eq]
      exact (hmem _ hlt).2 ⟨r, List.mem_cons_self, rfl⟩
    · rw [Bool.not_eq_true', decide_eq_false_iff_not]
      intro hp
      obtain ⟨u, hu, rfl⟩ := (hmem j (by omega)).1 hp
      rcases List.mem_cons.1 hu with rfl | hu
      · omega
      · have := (List.pairwise_cons.1 h.orderHi).1 u hu
        omega

/-! ## Starting a DMA -/

theorem ArqStage.logStart (h : ArqStage s his los) {p : ArqPost} {x : ArqXfer} (hpost : x.post = s.post r)
    (hp : s.posts[s.post r]? = some p) (hrest : (s.req r).Rest p (arqSent s.log (s.post r)))
    (hx : x.dir = (s.req r).dir ∧ x.memaddr = (s.req r).mramAddr ∧ x.aramaddr = (s.req r).aramAddr ∧ 0 < x.len)
    (hord : ∀ y ∈ s.log, arqIsHi s.posts y.post = arqIsHi s.posts (s.post r) → y.post ≤ s.post r)
    (hold : ∀ k, x.oldest = some k → s.post r = k) : ArqLog s.posts (s.log ++ [x]) := by
  obtain ⟨h1, h2, h3, h4⟩ := hx
  refine h.log.start (by rw [hpost]; exact hp) ?_ (by rw [hpost]; exact hord) (by rw [hpost]; exact hold)
  rw [hpost]
  exact ⟨h1.trans hrest.dir, h2.trans hrest.mramAddr, h3.trans hrest.aramAddr, h4⟩

theorem arqSent_other {log : List ArqXfer} {x : ArqXfer} {k : Nat} (hk : x.post ≠ k) : arqSent (log ++ [x]) k = arqSent log k := by
  rw [arqSent_append, if_neg hk]

theorem ArqStage.calledStart (h : ArqStage s his los) {s' : ArqSys R} {x : ArqXfer} (hr : r ∈ s.live his los)
    (hpost : x.post = s.post r) (hposts : s'.posts = s.posts) (hlog : s'.log = s.log ++ [x]) : ∀ k ∈ s.called, s'.Sent k := by
  intro k hk
  obtain ⟨p, hp, hs⟩ := h.sentCalled k hk
  refine ⟨p, by rw [hposts]; exact hp, ?_⟩
  rw [hlog, arqSent_other, hs]
  rintro rfl
  rw [hpost] at hk
  exact h.not_called hr hk

section Start
variable [DecidableEq R]

variable {t : List R} {m : Mem ArqQ R} {s' : ArqSys R}

theorem ArqStage.startHi (h : ArqStage s (r :: t) los) (hcb : s.inCallback = none) (hph : s.pendingHi = none) (hcl : s.callbackLo = none) :
    ArqStage (arqStartHi { s with links := m } r) t los := by
  obtain ⟨s', hs'⟩ : ∃ s', s' = arqStartHi { s with links := m } r := ⟨_, rfl⟩
  obtain ⟨x, hx⟩ : ∃ x, x = (⟨s.post r, (s.req r).dir, (s.req r).mramAddr, (s.req r).aramAddr, (s.req r).len, s.busy, s.dropped r,
    arqOldest s.posts s.log⟩ : ArqXfer) := ⟨_, rfl⟩
  have hpost : x.post = s.post r := by rw [hx]
  have hlog : s'.log = s.log ++ [x] := by
    rw [hs', hx]
    unfold arqStartHi
    dsimp only [arStartDMA]
    rw [setReq_req_self]
    rfl
  have hreq : ∀ u, u ≠ r → s'.req u = s.req u := fun u hu => by
    rw [hs']
    exact Function.update_of_ne hu ..
  have hposts : s'.posts = s.posts ∧ s'.post = s.post ∧ s'.called = s.called ∧ s'.chunkSize = s.chunkSize ∧
      s'.callbackLo = s.callbackLo := by
    rw [hs']
    exact ⟨rfl, rfl, rfl, rfl, rfl⟩
  obtain ⟨e1, e2, e3, e4, e5⟩ := hposts
  have hah : s'.activeHi = some r := by
    rw [activeHi_of_none (by rw [hs']; exact hcb), hs']
    rfl
  have hal : s'.activeLo = s.activeLo := by
    rw [hs']
    rfl
  have hah0 : s.activeHi = none := by rw [activeHi_of_none hcb, hph]
  have hr : r ∈ s.live (r :: t) los := mem_live.2 (.inr (.inr (.inl List.mem_cons_self)))
  have hi := h.isHi r List.mem_cons_self
  have hlt := (List.pairwise_cons.1 h.orderHi).1
  obtain ⟨p, hp, hrest⟩ := h.rest r (.inl List.mem_cons_self)
  have hne : ∀ u, u ∈ t ∨ u ∈ los ∨ s.activeLo = some u → s.post r ≠ s.post u ∧ u ≠ r := by
    rintro u hu
    suffices hpu : s.post r ≠ s.post u from ⟨hpu, fun he => hpu (by rw [he])⟩
    rcases hu with hu | hu
    · exact (hlt u hu).ne
    · intro he
      rw [he, h.isLo u hu] at hi
      cases hi
  rw [← hs']
  refine ⟨?_, by rw [e1]; exact h.posts, ?_, fun u hu => ?_, fun u hu => ?_, fun u _ hc => ?_, ?_, ?_, ?_, ?_, ?_, ?_, ?_, ?_, ?_⟩
  · rw [hlog, e1]
    refine h.logStart hpost hp hrest (by rw [hx]; exact ⟨rfl, rfl, rfl, hrest.len⟩) (fun y hy hc => ?_) (fun k hk => ?_)
    · rw [hi] at hc
      exact (h.lastHi y hy hc r List.mem_cons_self).le
    · rw [hx] at hk
      have hk' : arqOldest s.posts s.log = some k := hk
      rw [h.oldest] at hk'
      exact Option.some.inj hk'
  · have hlive : (s'.live t los).Perm (s.live (r :: t) los) := by
      unfold ArqSys.live
      rw [hah, hal, hah0]
      show (r :: (s.activeLo.toList ++ (t ++ los))).Perm (s.activeLo.toList ++ (r :: (t ++ los)))
      exact List.perm_middle.symm
    rw [e1, e2, e3]
    exact ((hlive.map s.post).append_left s.called).trans h.perm
  · have hu' : u ∈ t ∨ u ∈ los ∨ s.activeLo = some u := by
      rw [hal] at hu
      tauto
    obtain ⟨hpu, hur⟩ := hne u hu'
    rw [e1, e2, hreq u hur, hlog, arqSent_other (by rw [hpost]; exact hpu)]
    refine h.rest u ?_
    rw [hal, e5] at hu
    rcases hu with hu | hu
    · exact .inl (List.mem_cons_of_mem _ hu)
    · exact .inr hu
  · rw [hah] at hu
    obtain rfl : r = u := Option.some.inj hu
    refine ⟨p, by rw [e1, e2]; exact hp, ?_⟩
    rw [e2, hlog, arqSent_append, if_pos hpost, hx]
    exact hrest.sum
  · rw [e5, hcl] at hc
    cases hc
  · rw [e3]
    exact h.calledStart hr hpost e1 hlog
  · rw [e1, e2]
    exact fun u hu => h.isHi u (List.mem_cons_of_mem _ hu)
  · rw [e1, e2, hal]
    exact h.isLo
  · rw [e2]
    exact (List.pairwise_cons.1 h.orderHi).2
  · rw [e2, hal]
    exact h.orderLo
  · intro y hy hc u hu
    rw [e2]
    rw [e1] at hc
    rw [hlog] at hy
    rcases List.mem_append.1 hy with hy | hy
    · exact h.lastHi y hy hc u (List.mem_cons_of_mem _ hu)
    · rw [List.mem_singleton.1 hy, hpost]
      exact hlt u hu
  · intro y hy hc
    rw [e2, hal]
    rw [e1] at hc
    rw [hlog] at hy
    rcases List.mem_append.1 hy with hy | hy
    · exact h.lastLo y hy hc
    · rw [List.mem_singleton.1 hy, hpost, hi] at hc
      cases hc
  · intro _ y hy
    rw [hlog, List.getLast?_concat] at hy
    rw [← Option.some.inj hy, hpost, e3]
    exact h.not_called hr
  · rw [e4]
    exact h.chunk

omit [DecidableEq R] in
theorem ArqStage.take (h : ArqStage s his (r :: t)) (hcb : s.inCallback = none) (hpl : s.pendingLo = none) (hcl : s.callbackLo = none) :
    ArqStage { s with links := m, pendingLo := some r } his t := by
  have hal : s.activeLo = none := by rw [activeLo_of_none hcb, hpl]
  have hal' : ArqSys.activeLo { s with links := m, pendingLo := some r } = some r := activeLo_of_none hcb
  have hord : (r :: t).Pairwise fun u v => s.post u < s.post v := by
    have := h.orderLo
    rw [hal] at this
    exact this
  refine ⟨h.log, h.posts, ?_, fun u hu => h.rest u ?_, h.sentHi, fun u _ hc => ?_, h.sentCalled, h.isHi, fun u hu => ?_, h.orderHi, ?_,
    h.lastHi, fun x hx hc => ?_, h.flight, h.chunk⟩
  · have hlive : ArqSys.live { s with links := m, pendingLo := some r } his t = s.activeHi.toList ++ ([r] ++ (his ++ t)) := by
      unfold ArqSys.live
      rw [hal']
      rfl
    have hperm : (s.activeHi.toList ++ ([r] ++ (his ++ t))).Perm (s.live his (r :: t)) := by
      unfold ArqSys.live
      rw [hal]
      show (s.activeHi.toList ++ (r :: (his ++ t))).Perm (s.activeHi.toList ++ (his ++ r :: t))
      exact List.perm_middle.symm.append_left _
    rw [hlive]
    exact ((hperm.map s.post).append_left s.called).trans h.perm
  · rcases hu with hu | hu | ⟨hu, -⟩
    · exact .inl hu
    · exact .inr (.inl (List.mem_cons_of_mem _ hu))
    · rw [hal'] at hu
      cases hu
      exact .inr (.inl List.mem_cons_self)
  · have hc' : s.callbackLo.isSome := hc
    rw [hcl] at hc'
    cases hc'
  · rcases hu with hu | hu
    · exact h.isLo u (.inl (List.mem_cons_of_mem _ hu))
    · rw [hal'] at hu
      cases hu
      exact h.isLo r (.inl List.mem_cons_self)
  · rw [hal']
    exact hord
  · obtain ⟨h1, -⟩ := h.lastLo x hx hc
    refine ⟨fun u hu => h1 u (List.mem_cons_of_mem _ hu), fun u hu => ?_⟩
    rw [hal'] at hu
    cases hu
    exact (h1 r List.mem_cons_self).le

omit [DecidableEq R] in
/-- **A DMA of low priority**, for some bytes of the request in progress: with these it is done, or the rest is left in the request. -/
theorem ArqStage.startLo (h : ArqStage s [] los) (hcb : s.inCallback = none) (hph : s.pendingHi = none) (hpl : s.pendingLo = some r)
    (hcl : s.callbackLo = none) {x : ArqXfer} (hlog : s'.log = s.log ++ [x])
    (hsame : s'.posts = s.posts ∧ s'.post = s.post ∧ s'.called = s.called ∧ s'.chunkSize = s.chunkSize)
    (hpend : s'.inCallback = none ∧ s'.pendingHi = none ∧ s'.pendingLo = some r) (hpost : x.post = s.post r)
    (hx : x.dir = (s.req r).dir ∧ x.memaddr = (s.req r).mramAddr ∧ x.aramaddr = (s.req r).aramAddr ∧ 0 < x.len)
    (hold : x.oldest = arqOldest s.posts s.log) (hreq : ∀ u, u ≠ r → s'.req u = s.req u)
    (hdone : s'.callbackLo.isSome → x.len = (s.req r).len)
    (hrest' : s'.callbackLo = none → x.len < (s.req r).len ∧ (s'.req r).dir = (s.req r).dir ∧ (s'.req r).mramAddr = u32 ((s.req r).mramAddr + x.len) ∧ (s'.req r).aramAddr = u32 ((s.req r).aramAddr + x.len) ∧ (s'.req r).len = (s.req r).len - x.len) :
    ArqStage s' [] los := by
  obtain ⟨e1, e2, e3, e4⟩ := hsame
  obtain ⟨c1, c2, c3⟩ := hpend
  have hal : s.activeLo = some r := by rw [activeLo_of_none hcb, hpl]
  have hal' : s'.activeLo = some r := by rw [activeLo_of_none c1, c3]
  have hlive : s'.live [] los = s.live [] los := by
    unfold ArqSys.live
    rw [hal, hal', activeHi_of_none c1, activeHi_of_none hcb, c2, hph]
  have hr : r ∈ s.live [] los := mem_live.2 (.inr (.inl hal))
  obtain ⟨p, hp, hrest⟩ := h.rest r (.inr (.inr ⟨hal, hcl⟩))
  have hi := h.isLo r (.inr hal)
  have hlt : ∀ u ∈ los, s.post r < s.post u := by
    have hord := h.orderLo
    rw [hal] at hord
    exact (List.pairwise_cons.1 hord).1
  refine ⟨?_, by rw [e1]; exact h.posts, ?_, fun u hu => ?_, fun u hu => ?_, fun u hu hc => ?_, ?_, ?_, ?_, ?_, ?_, ?_, ?_, ?_, ?_⟩
  · rw [hlog, e1]
    refine h.logStart hpost hp hrest hx (fun y hy hc => ?_) (fun k hk => ?_)
    · rw [hi] at hc
      exact (h.lastLo y hy hc).2 r hal
    · rw [hold, h.oldest] at hk
      cases hk
  · rw [e1, e2, e3, hlive]
    exact h.perm
  · rcases hu with hu | hu | ⟨hu, hc⟩
    · cases hu
    · have hne := hlt u hu
      have hur : u ≠ r := fun he => by rw [he] at hne; exact lt_irrefl _ hne
      rw [e1, e2, hreq u hur, hlog, arqSent_other (by rw [hpost]; exact hne.ne)]
      exact h.rest u (.inr (.inl hu))
    · rw [hal'] at hu
      cases hu
      obtain ⟨hlen, r1, r2, r3, r4⟩ := hrest' hc
      refine ⟨p, by rw [e1, e2]; exact hp, ?_⟩
      rw [e2, hlog, arqSent_append, if_pos hpost]
      have hsum := hrest.sum
      refine ⟨r1.trans hrest.dir, ?_, ?_, by rw [r4]; omega, by rw [r4]; omega⟩
      · rw [r2, hrest.mramAddr, u32_add, Nat.add_assoc]
      · rw [r3, hrest.aramAddr, u32_add, Nat.add_assoc]
  · rw [activeHi_of_none c1, c2] at hu
    cases hu
  · rw [hal'] at hu
    cases hu
    refine ⟨p, by rw [e1, e2]; exact hp, ?_⟩
    rw [e2, hlog, arqSent_append, if_pos hpost, hdone hc]
    exact hrest.sum
  · rw [e3]
    exact h.calledStart hr hpost e1 hlog
  · exact fun u hu => by cases hu
  · rw [e1, e2, hal', ← hal]
    exact h.isLo
  · exact List.Pairwise.nil
  · rw [e2, hal', ← hal]
    exact h.orderLo
  · exact fun _ _ _ u hu => by cases hu
  · intro y hy hc
    rw [e2, hal', ← hal]
    rw [e1] at hc
    rw [hlog] at hy
    rcases List.mem_append.1 hy with hy | hy
    · exact h.lastLo y hy hc
    · rw [List.mem_singleton.1 hy, hpost]
      refine ⟨hlt, fun u hu => ?_⟩
      rw [hal] at hu
      cases hu
      exact le_refl _
  · intro _ y hy
    rw [hlog, List.getLast?_concat] at hy
    rw [← Option.some.inj hy, hpost, e3]
    exact h.not_called hr
  · rw [e4]
    exact h.chunk

theorem ArqStage.serviceLo (h : ArqStage s [] los) (hcb : s.inCallback = none) (hph : s.pendingHi = none) (hpl : s.pendingLo = some r)
    (hcl : s.callbackLo = none) : ArqStage (arqServiceLo s r) [] los := by
  obtain ⟨p, -, hrest⟩ := h.rest r (.inr (.inr ⟨by rw [activeLo_of_none hcb, hpl], hcl⟩))
  rw [arqServiceLo_eq]
  split
  · refine h.startLo hcb hph hpl hcl rfl ⟨rfl, rfl, rfl, rfl⟩ ⟨hcb, hph, hpl⟩ rfl ⟨rfl, rfl, rfl, hrest.len⟩ rfl (fun u hu => ?_)
      (fun _ => rfl) (fun hc => by cases hc)
    exact Function.update_of_ne hu ..
  · rename_i hlen
    refine h.startLo hcb hph hpl hcl rfl ⟨rfl, rfl, rfl, rfl⟩ ⟨hcb, hph, hpl⟩ rfl ⟨rfl, rfl, rfl, h.chunk⟩ rfl (fun u hu => ?_)
      (fun hc => ?_) (fun _ => ⟨Nat.lt_of_not_le hlen, ?_⟩)
    · show Function.update (Function.update s.req r _) r _ u = _
      rw [Function.update_of_ne hu, Function.update_of_ne hu]
    · have : s.callbackLo.isSome := hc
      rw [hcl] at this
      cases this
    · rw [setReq_req_self]
      have hreq : (arStartDMA (s.setReq r (.setState .running)) r (s.req r).dir (s.req r).mramAddr (s.req r).aramAddr
          s.chunkSize).req r = ArqRequest.setState .running (s.req r) := setReq_req_self s r _
      rw [hreq]
      exact ⟨rfl, rfl, rfl, rfl⟩

theorem ArqStage.started (h : ArqStage s his los)
    (hidle : s.inCallback = none ∧ s.busy = 0 ∧ s.pendingHi = none ∧ s.callbackHi = none ∧ s.callbackLo = none) {his' los' : List R}
    (hn : ArqNextDMA s his los s' his' los') : ArqStage s' his' los' := by
  obtain ⟨hcb, -, hph, -, hcl⟩ := hidle
  cases hn with
  | hi hm => exact h.startHi hcb hph hcl
  | going hp => exact h.serviceLo hcb hph hp hcl
  | lo hp hm => exact (h.take hcb hp hcl).serviceLo hcb hph rfl hcl
  | none hp => exact h

/-! ## Posting, the interrupt and callbacks -/

omit [DecidableEq R] in
theorem ArqSys.Sent.post {k : Nat} {p : ArqPost} (h : s.Sent k) (hposts : s'.posts = s.posts ++ [p]) (hlog : s'.log = s.log) :
    s'.Sent k := by
  obtain ⟨q, hq, hs⟩ := h
  refine ⟨q, ?_, by rw [hlog]; exact hs⟩
  rw [hposts, List.getElem?_append_left (List.getElem?_eq_some_iff.1 hq).1]
  exact hq

omit [DecidableEq R] in
/-- A posting's request goes to the end of a queue, with those behind it in the list of the live ones. -/
theorem arqPut_live (s : ArqSys R) (prio : Nat) (his los : List R) :
    (s.live (arqPut prio r his los).1 (arqPut prio r his los).2).Perm (r :: s.live his los) := by
  have hput : ((arqPut prio r his los).1 ++ (arqPut prio r his los).2).Perm (r :: (his ++ los)) := by
    unfold arqPut
    split
    · show (his ++ (los ++ [r])).Perm _
      rw [← List.append_assoc]
      exact List.perm_append_singleton r (his ++ los)
    · show (his ++ [r] ++ los).Perm _
      rw [List.append_assoc]
      exact List.perm_middle
  unfold ArqSys.live
  refine ((hput.append_left _).append_left _).trans ?_
  rw [← List.append_assoc, ← List.append_assoc]
  exact List.perm_middle

omit [DecidableEq R] in
theorem not_live {owner dir prio aramAddr mramAddr len : Nat} {cb : Option ArqCallback} (h : ArqLists s his los)
    (hg : arqGuard s (.post r owner dir prio aramAddr mramAddr len cb)) : r ∉ s.live his los := by
  obtain ⟨-, -, -, -, hw, hhi, hlo⟩ := hg
  rw [mem_live, h.hi r, h.lo r, hw]
  rintro (ha | ha | ⟨ha, -⟩ | ⟨ha, -⟩)
  · unfold ArqSys.activeHi at ha
    split at ha
    · cases ha
    · rename_i hne
      exact hne (hhi ha)
  · unfold ArqSys.activeLo at ha
    split at ha
    · cases ha
    · rename_i hne
      exact hne (hlo ha)
  · cases ha
  · cases ha

theorem ArqStage.posted {owner dir prio aramAddr mramAddr len : Nat} {cb : Option ArqCallback} (h : ArqStage s his los)
    (hl : ArqLists s his los) (hg : arqGuard s (.post r owner dir prio aramAddr mramAddr len cb)) :
    ArqStage (arqPosted s r owner dir prio aramAddr mramAddr len cb) (arqPut prio r his los).1 (arqPut prio r his los).2 := by
  have hnl := not_live hl hg
  obtain ⟨hlen, -, haram, hmram, -⟩ := hg
  obtain ⟨p, hp⟩ : ∃ p, p = (⟨prio, dir, aramAddr, mramAddr, len⟩ : ArqPost) := ⟨_, rfl⟩
  obtain ⟨s', hs'⟩ : ∃ s', s' = arqPosted s r owner dir prio aramAddr mramAddr len cb := ⟨_, rfl⟩
  have hposts : s'.posts = s.posts ++ [p] := by rw [hs', hp]; rfl
  have hpost : s'.post = Function.update s.post r s.posts.length := by rw [hs']; rfl
  have hsame : s'.log = s.log ∧ s'.called = s.called ∧ s'.chunkSize = s.chunkSize ∧ s'.callbackLo = s.callbackLo ∧ s'.busy = s.busy ∧
      s'.activeHi = s.activeHi ∧ s'.activeLo = s.activeLo := by
    rw [hs']
    exact ⟨rfl, rfl, rfl, rfl, rfl, rfl, rfl⟩
  obtain ⟨e1, e2, e3, e4, e5, e6, e7⟩ := hsame
  have hreq : ∀ u, u ≠ r → s'.req u = s.req u := fun u hu => by
    rw [hs']
    exact Function.update_of_ne hu ..
  have hself : s'.post r = s.posts.length := by rw [hpost, Function.update_self]
  have hlive : ∀ u ∈ s.live his los, u ≠ r ∧ s'.post u = s.post u ∧ s.post u < s.posts.length := by
    intro u hu
    have hur : u ≠ r := fun he => hnl (he ▸ hu)
    exact ⟨hur, by rw [hpost, Function.update_of_ne hur], h.post_lt hu⟩
  have hmem := fun u => arqPut_mem (r := r) prio his los u
  have hputHi : ∀ u ∈ (arqPut prio r his los).1, u ∈ his ∨ (u = r ∧ prio ≠ arqPrioLo) := fun u hu => (hmem u).1.1 hu
  have hputLo : ∀ u ∈ (arqPut prio r his los).2, u ∈ los ∨ (u = r ∧ prio = arqPrioLo) := fun u hu => (hmem u).2.1 hu
  have hnew : s'.posts[s'.post r]? = some p := by rw [hposts, hself, List.getElem?_concat_length]
  have hclass : arqIsHi s'.posts (s'.post r) = decide (prio ≠ arqPrioLo) := by
    rw [arqIsHi, hnew, hp]
    rfl
  have hof : arqSent s'.log (s'.post r) = 0 := by
    have hnil : arqOf s'.log (s'.post r) = [] := by
      refine List.filter_eq_nil_iff.2 fun x hx => ?_
      rw [e1] at hx
      have := h.log.known x hx
      rw [decide_eq_true_eq, hself]
      omega
    rw [arqSent, hnil]
    rfl
  have hold : ∀ u ∈ s.live his los, arqIsHi s'.posts (s'.post u) = arqIsHi s.posts (s.post u) := by
    intro u hu
    obtain ⟨-, hpu, hlt⟩ := hlive u hu
    rw [hposts, hpu, arqIsHi_append hlt]
  have inHi : ∀ u ∈ his, u ∈ s.live his los := fun u hu => mem_live.2 (.inr (.inr (.inl hu)))
  have inLo : ∀ u ∈ los, u ∈ s.live his los := fun u hu => mem_live.2 (.inr (.inr (.inr hu)))
  have inAct : ∀ u, s.activeLo = some u → u ∈ s.live his los := fun u hu => mem_live.2 (.inr (.inl hu))
  have hpw : ∀ {L : List R}, (∀ u ∈ L, u ∈ s.live his los) → (L.Pairwise fun u v => s.post u < s.post v) →
      (L.Pairwise fun u v => s'.post u < s'.post v) ∧ (L ++ [r]).Pairwise fun u v => s'.post u < s'.post v := by
    intro L hL hp
    have hp' : L.Pairwise fun u v => s'.post u < s'.post v := by
      refine hp.imp_of_mem fun {u v} hu hv huv => ?_
      rw [(hlive u (hL u hu)).2.1, (hlive v (hL v hv)).2.1]
      exact huv
    refine ⟨hp', List.pairwise_append.2 ⟨hp', List.pairwise_singleton _ _, fun u hu v hv => ?_⟩⟩
    rw [List.mem_singleton.1 hv, hself, (hlive u (hL u hu)).2.1]
    exact (hlive u (hL u hu)).2.2
  rw [← hs']
  refine ⟨?_, ?_, ?_, fun u hu => ?_, fun u hu => ?_, fun u hu hc => ?_, fun k hk => ?_, fun u hu => ?_, fun u hu => ?_, ?_, ?_,
    fun x hx hc u hu => ?_, fun x hx hc => ?_, ?_, ?_⟩
  · rw [hposts, e1]
    exact h.log.post p
  · rw [hposts]
    intro q hq
    rcases List.mem_append.1 hq with hq | hq
    · exact h.posts q hq
    · rw [List.mem_singleton.1 hq, hp]
      exact ⟨hlen, haram, hmram⟩
  · have hmap : (s.live his los).map s'.post = (s.live his los).map s.post :=
      List.map_congr_left fun u hu => (hlive u hu).2.1
    have hput := (arqPut_live (r := r) s' prio his los).map s'.post
    have hlv : s'.live his los = s.live his los := by
      unfold ArqSys.live
      rw [e6, e7]
    rw [List.map_cons, hself, hlv, hmap] at hput
    rw [hposts, List.length_append, List.length_singleton, List.range_succ, e2]
    refine (hput.append_left s.called).trans ?_
    refine List.perm_middle.trans ?_
    exact (List.Perm.cons _ h.perm).trans (List.perm_append_singleton _ _).symm
  · by_cases hur : u = r
    · subst hur
      refine ⟨p, hnew, ?_⟩
      rw [hof]
      have hr : s'.req u = ⟨owner, dir, prio, .ready, aramAddr, mramAddr, len, cb.getD .dummy⟩ := by
        rw [hs']
        exact Function.update_self ..
      rw [hr, hp]
      exact ⟨rfl, (u32_of_lt hmram).symm, (u32_of_lt haram).symm, hlen, Nat.zero_add _⟩
    · have hu' : u ∈ his ∨ u ∈ los ∨ (s.activeLo = some u ∧ s.callbackLo = none) := by
        rw [e7, e4] at hu
        rcases hu with hu | hu | hu
        · exact .inl ((hputHi u hu).resolve_right fun hc => hur hc.1)
        · exact .inr (.inl ((hputLo u hu).resolve_right fun hc => hur hc.1))
        · exact .inr (.inr hu)
      obtain ⟨q, hq, hrest⟩ := h.rest u hu'
      have hin : u ∈ s.live his los := hu'.elim (inHi u) fun hu' => hu'.elim (inLo u) fun hu' => inAct u hu'.1
      obtain ⟨-, hpu, hlt⟩ := hlive u hin
      refine ⟨q, ?_, ?_⟩
      · rw [hposts, hpu, List.getElem?_append_left hlt]
        exact hq
      · rw [hreq u hur, e1, hpu]
        exact hrest
  · rw [e6] at hu
    rw [(hlive u (mem_live.2 (.inl hu))).2.1]
    exact (h.sentHi u hu).post hposts e1
  · rw [e7] at hu
    rw [e4] at hc
    rw [(hlive u (inAct u hu)).2.1]
    exact (h.sentLo u hu hc).post hposts e1
  · rw [e2] at hk
    exact (h.sentCalled k hk).post hposts e1
  · rcases hputHi u hu with hu | ⟨rfl, hprio⟩
    · rw [hold u (inHi u hu)]
      exact h.isHi u hu
    · rw [hclass]
      simpa using hprio
  · have hu' : (u ∈ los ∨ s.activeLo = some u) ∨ (u = r ∧ prio = arqPrioLo) := by
      rw [e7] at hu
      rcases hu with hu | hu
      · exact (hputLo u hu).imp_left .inl
      · exact .inl (.inr hu)
    rcases hu' with hu' | ⟨rfl, hprio⟩
    · rw [hold u (hu'.elim (inLo u) (inAct u))]
      exact h.isLo u hu'
    · rw [hclass]
      simpa using hprio
  · unfold arqPut
    split
    · exact (hpw inHi h.orderHi).1
    · exact (hpw inHi h.orderHi).2
  · have hin : ∀ u ∈ s.activeLo.toList ++ los, u ∈ s.live his los := by
      intro u hu
      rcases List.mem_append.1 hu with hu | hu
      · exact inAct u (by simpa using hu)
      · exact inLo u hu
    rw [e7]
    unfold arqPut
    split
    · rw [← List.append_assoc]
      exact (hpw hin h.orderLo).2
    · exact (hpw hin h.orderLo).1
  · rw [e1] at hx
    rw [hposts, arqIsHi_append (h.log.known x hx)] at hc
    rcases hputHi u hu with hu | ⟨rfl, -⟩
    · rw [(hlive u (inHi u hu)).2.1]
      exact h.lastHi x hx hc u hu
    · rw [hself]
      exact h.log.known x hx
  · rw [e1] at hx
    rw [hposts, arqIsHi_append (h.log.known x hx)] at hc
    refine ⟨fun u hu => ?_, fun u hu => ?_⟩
    · rcases hputLo u hu with hu | ⟨rfl, -⟩
      · rw [(hlive u (inLo u hu)).2.1]
        exact (h.lastLo x hx hc).1 u hu
      · rw [hself]
        exact h.log.known x hx
    · rw [e7] at hu
      rw [(hlive u (inAct u hu)).2.1]
      exact (h.lastLo x hx hc).2 u hu
  · rw [e1, e2, e5]
    exact h.flight
  · rw [e3]
    exact h.chunk

omit [DecidableEq R] in
/-- A posting with nothing left to start is called back, with the engine idle. -/
theorem ArqStage.called (h : ArqStage s his los) (hlive : (s.live his los).Perm (r :: s'.live his los)) (hsent : s.Sent (s.post r))
    (hlog : s'.log = s.log) (hposts : s'.posts = s.posts) (hpost : s'.post = s.post) (hcalled : s'.called = s.called ++ [s.post r])
    (hchunk : s'.chunkSize = s.chunkSize) (hbusy : s'.busy = 0) (hreq : ∀ u p off, (s.req u).Rest p off → (s'.req u).Rest p off)
    (hcl : s'.callbackLo = s.callbackLo) (hah : ∀ u, s'.activeHi = some u → s.activeHi = some u)
    (hal : s'.activeLo = s.activeLo ∨ s'.activeLo = none) : ArqStage s' his los := by
  have hal' : ∀ u, s'.activeLo = some u → s.activeLo = some u := by
    intro u hu
    rcases hal with he | he
    · rw [← he]
      exact hu
    · rw [he] at hu
      cases hu
  have hsent' : ∀ {k}, s.Sent k → s'.Sent k := by
    rintro k ⟨p, hp, hs⟩
    exact ⟨p, by rw [hposts]; exact hp, by rw [hlog]; exact hs⟩
  refine ⟨?_, ?_, ?_, fun u hu => ?_, fun u hu => ?_, fun u hu hc => ?_, fun k hk => ?_, ?_, fun u hu => ?_, ?_, ?_, ?_, ?_,
    fun hb => absurd hbusy hb, by rw [hchunk]; exact h.chunk⟩
  · rw [hposts, hlog]
    exact h.log
  · rw [hposts]
    exact h.posts
  · rw [hcalled, hposts, hpost, List.append_assoc]
    exact ((hlive.map s.post).symm.append_left s.called).trans h.perm
  · have hu' : u ∈ his ∨ u ∈ los ∨ (s.activeLo = some u ∧ s.callbackLo = none) := by
      rw [hcl] at hu
      exact hu.imp_right fun hu => hu.imp_right fun hu => ⟨hal' u hu.1, hu.2⟩
    obtain ⟨p, hp, hrest⟩ := h.rest u hu'
    rw [hposts, hpost, hlog]
    exact ⟨p, hp, hreq u p _ hrest⟩
  · rw [hpost]
    exact hsent' (h.sentHi u (hah u hu))
  · rw [hcl] at hc
    rw [hpost]
    exact hsent' (h.sentLo u (hal' u hu) hc)
  · rw [hcalled] at hk
    rcases List.mem_append.1 hk with hk | hk
    · exact hsent' (h.sentCalled k hk)
    · rw [List.mem_singleton.1 hk]
      exact hsent' hsent
  · rw [hposts, hpost]
    exact h.isHi
  · rw [hposts, hpost]
    exact h.isLo u (hu.imp_right (hal' u))
  · rw [hpost]
    exact h.orderHi
  · rw [hpost]
    rcases hal with he | he
    · rw [he]
      exact h.orderLo
    · rw [he]
      exact (List.pairwise_append.1 h.orderLo).2.1
  · rw [hposts, hpost, hlog]
    exact h.lastHi
  · rw [hposts, hpost, hlog]
    intro x hx hc
    obtain ⟨h1, h2⟩ := h.lastLo x hx hc
    exact ⟨h1, fun u hu => h2 u (hal' u hu)⟩

theorem finished_rest (s : ArqSys R) (q : ArqQ) (r u : R) {p : ArqPost} {off : Nat} (h : (s.req u).Rest p off) :
    ((arqFinished s q r).req u).Rest p off := by
  show (Function.update s.req r (.setState .finished (s.req r)) u).Rest p off
  by_cases hu : u = r
  · subst hu
    rw [Function.update_self]
    exact ⟨h.dir, h.mramAddr, h.aramAddr, h.len, h.sum⟩
  · rw [Function.update_of_ne hu]
    exact h

theorem ArqStage.finishHi (h : ArqStage s his los) (hcb : s.inCallback = none) (hb : s.busy ≤ 1) (hp : s.pendingHi = some r) :
    ArqStage (arqFinished s .hi r) his los := by
  have hah : s.activeHi = some r := by rw [activeHi_of_none hcb, hp]
  have hal : (arqFinished s .hi r).activeLo = s.activeLo := (activeLo_of_none hcb).symm
  refine h.called ?_ (h.sentHi r hah) rfl rfl rfl rfl rfl (Nat.sub_eq_zero_of_le hb) (fun u p off => finished_rest s .hi r u) rfl
    (fun u hu => by cases hu) (.inl hal)
  unfold ArqSys.live
  rw [hah, hal]
  exact List.Perm.refl _

theorem ArqStage.finishLo (h : ArqStage s his los) (hcb : s.inCallback = none) (hb : s.busy ≤ 1) (hp : s.pendingLo = some r)
    (hc : s.callbackLo.isSome) : ArqStage (arqFinished s .lo r) his los := by
  have hal : s.activeLo = some r := by rw [activeLo_of_none hcb, hp]
  have hah : (arqFinished s .lo r).activeHi = s.activeHi := (activeHi_of_none hcb).symm
  refine h.called ?_ (h.sentLo r hal hc) rfl rfl rfl rfl rfl (Nat.sub_eq_zero_of_le hb) (fun u p off => finished_rest s .lo r u) rfl
    (fun u hu => by rw [← hah]; exact hu) (.inr rfl)
  have hnone : (arqFinished s .lo r).activeLo = none := rfl
  unfold ArqSys.live
  rw [hah, hal, hnone]
  exact List.perm_middle

omit [DecidableEq R] in
theorem ArqStage.idle (h : ArqStage s his los) (hb : s.busy ≤ 1) : ArqStage { s with busy := s.busy - 1 } his los :=
  ⟨h.log, h.posts, h.perm, h.rest, h.sentHi, h.sentLo, h.sentCalled, h.isHi, h.isLo, h.orderHi, h.orderLo, h.lastHi, h.lastLo,
    fun hne => absurd (Nat.sub_eq_zero_of_le hb) hne, h.chunk⟩

omit [DecidableEq R] in
theorem ArqStage.resumed (h : ArqStage s his los) (hah : s'.activeHi = s.activeHi) (hal : s'.activeLo = s.activeLo)
    (hcl : s.activeLo.isSome → s'.callbackLo = s.callbackLo) (hlog : s'.log = s.log) (hposts : s'.posts = s.posts)
    (hpost : s'.post = s.post) (hcalled : s'.called = s.called) (hreq : s'.req = s.req) (hbusy : s'.busy = s.busy)
    (hchunk : s'.chunkSize = s.chunkSize) : ArqStage s' his los := by
  have hlive : s'.live his los = s.live his los := by
    unfold ArqSys.live
    rw [hah, hal]
  have hsent : ∀ {k}, s.Sent k → s'.Sent k := by
    rintro k ⟨p, hp, hs⟩
    exact ⟨p, by rw [hposts]; exact hp, by rw [hlog]; exact hs⟩
  have hcl' : ∀ u, s.activeLo = some u → s'.callbackLo = s.callbackLo := fun u hu => hcl (by rw [hu]; rfl)
  refine ⟨by rw [hposts, hlog]; exact h.log, by rw [hposts]; exact h.posts, by rw [hposts, hpost, hcalled, hlive]; exact h.perm,
    fun u hu => ?_, fun u hu => ?_, fun u hu hc => ?_, by rw [hcalled]; exact fun k hk => hsent (h.sentCalled k hk),
    by rw [hposts, hpost]; exact h.isHi, by rw [hposts, hpost, hal]; exact h.isLo, by rw [hpost]; exact h.orderHi,
    by rw [hpost, hal]; exact h.orderLo, by rw [hposts, hpost, hlog]; exact h.lastHi, by rw [hposts, hpost, hlog, hal]; exact h.lastLo,
    by rw [hbusy, hlog, hcalled]; exact h.flight, by rw [hchunk]; exact h.chunk⟩
  · rw [hposts, hpost, hreq, hlog]
    refine h.rest u (hu.imp_right fun hu => hu.imp_right fun hu => ?_)
    rw [hal] at hu
    exact ⟨hu.1, (hcl' u hu.1) ▸ hu.2⟩
  · rw [hah] at hu
    rw [hpost]
    exact hsent (h.sentHi u hu)
  · rw [hal] at hu
    rw [hcl' u hu] at hc
    rw [hpost]
    exact hsent (h.sentLo u hu hc)

omit [DecidableEq R] in
theorem ArqStage.resumeHi (h : ArqStage s his los) (hcb : s.inCallback = some .hi) :
    ArqStage { s with pendingHi := none, callbackHi := none, inCallback := none } his los := by
  refine h.resumed ?_ ?_ (fun _ => rfl) rfl rfl rfl rfl rfl rfl rfl
  · unfold ArqSys.activeHi
    rw [if_pos hcb, if_neg (by simp)]
  · unfold ArqSys.activeLo
    rw [hcb, if_neg (by simp), if_neg (by simp)]

omit [DecidableEq R] in
theorem ArqStage.resumeLo (h : ArqStage s his los) (hcb : s.inCallback = some .lo) :
    ArqStage { s with pendingLo := none, callbackLo := none, inCallback := none } his los := by
  have hnone : s.activeLo = none := by
    unfold ArqSys.activeLo
    rw [if_pos hcb]
  refine h.resumed ?_ ?_ (fun hc => ?_) rfl rfl rfl rfl rfl rfl rfl
  · unfold ArqSys.activeHi
    rw [hcb, if_neg (by simp), if_neg (by simp)]
  · rw [hnone]
    rfl
  · rw [hnone] at hc
    cases hc

/-! ## What is left to do -/

/-- The bytes no DMA was started for. -/
def ArqSys.left (s : ArqSys R) (his los : List R) : Nat :=
  (his.map fun r => (s.req r).len).sum + (los.map fun r => (s.req r).len).sum +
    if s.callbackLo = none then (s.activeLo.toList.map fun r => (s.req r).len).sum else 0

/-- **A measure every interrupt and every return decreases.** -/
def ArqSys.work (s : ArqSys R) (his los : List R) : Nat :=
  2 * s.left his los + 2 * s.busy + if s.inCallback = none then 0 else 1

theorem left_startHi (h : ArqStage s (r :: t) los) : (arqStartHi { s with links := m } r).left t los < s.left (r :: t) los := by
  have hlen : ∀ u, ((arqStartHi { s with links := m } r).req u).len = (s.req u).len := by
    intro u
    show (Function.update s.req r (.setState .running (s.req r)) u).len = _
    by_cases hu : u = r
    · rw [hu, Function.update_self]
      rfl
    · rw [Function.update_of_ne hu]
  obtain ⟨p, -, hrest⟩ := h.rest r (.inl List.mem_cons_self)
  have hpos := hrest.len
  unfold ArqSys.left
  simp only [hlen, List.map_cons, List.sum_cons]
  show _ + _ + (if s.callbackLo = none then (s.activeLo.toList.map fun r => (s.req r).len).sum else 0) < _
  omega

theorem left_serviceLo (h : ArqStage s [] los) (hcb : s.inCallback = none) (hpl : s.pendingLo = some r) (hcl : s.callbackLo = none) :
    (arqServiceLo s r).left [] los < s.left [] los := by
  have hal : s.activeLo = some r := by rw [activeLo_of_none hcb, hpl]
  obtain ⟨p, -, hrest⟩ := h.rest r (.inr (.inr ⟨hal, hcl⟩))
  have hpos := hrest.len
  have hchunk := h.chunk
  have hne : ∀ u ∈ los, u ≠ r := by
    rintro u hu rfl
    have hord := h.orderLo
    rw [hal] at hord
    exact lt_irrefl _ ((List.pairwise_cons.1 hord).1 u hu)
  -- the queued requests keep their lengths
  have hlos : ∀ s' : ArqSys R, (∀ u, u ≠ r → s'.req u = s.req u) →
      (los.map fun u => (s'.req u).len).sum = (los.map fun u => (s.req u).len).sum := by
    intro s' hs'
    congr 1
    exact List.map_congr_left fun u hu => by rw [hs' u (hne u hu)]
  have hleft : s.left [] los = (los.map fun u => (s.req u).len).sum + (s.req r).len := by
    unfold ArqSys.left
    rw [if_pos hcl, hal]
    simp
  rw [hleft, arqServiceLo_eq]
  unfold ArqSys.left
  split
  · rw [hlos _ fun u hu => Function.update_of_ne hu .., if_neg (by simp)]
    simpa using hpos
  · rename_i hlen
    rw [hlos _ fun u hu => (Function.update_of_ne hu ..).trans (Function.update_of_ne hu ..)]
    have hcl' : ((arStartDMA (s.setReq r (.setState .running)) r (s.req r).dir (s.req r).mramAddr (s.req r).aramAddr
        s.chunkSize).setReq r (.advance s.chunkSize)).callbackLo = none := hcl
    have hal' : ((arStartDMA (s.setReq r (.setState .running)) r (s.req r).dir (s.req r).mramAddr (s.req r).aramAddr
        s.chunkSize).setReq r (.advance s.chunkSize)).activeLo = some r := hal
    have hreq : (((arStartDMA (s.setReq r (.setState .running)) r (s.req r).dir (s.req r).mramAddr (s.req r).aramAddr
        s.chunkSize).setReq r (.advance s.chunkSize)).req r).len = (s.req r).len - s.chunkSize := by
      rw [setReq_req_self]
      show (Function.update s.req r _ r).len - _ = _
      rw [Function.update_self]
      rfl
    rw [if_pos hcl', hal']
    simp only [Option.toList_some, List.map_cons, List.map_nil, List.sum_cons, List.sum_nil, hreq]
    omega

omit [DecidableEq R] in
theorem left_take (hcb : s.inCallback = none) (hpl : s.pendingLo = none) (hcl : s.callbackLo = none) :
    ArqSys.left { s with links := m, pendingLo := some r } [] t = s.left [] (r :: t) := by
  have hal : s.activeLo = none := by rw [activeLo_of_none hcb, hpl]
  have hal' : ArqSys.activeLo { s with links := m, pendingLo := some r } = some r := activeLo_of_none hcb
  unfold ArqSys.left
  rw [if_pos hcl, if_pos hcl, hal, hal']
  simp only [Option.toList_some, Option.toList_none, List.map_cons, List.map_nil, List.sum_cons, List.sum_nil]
  omega

/-- **The queue at work.** -/
structure ArqServe (s : ArqSys R) (his los : List R) : Prop where
  inv : ArqInv s his los
  stage : ArqStage s his los
  calm : s.pendingLo = none → s.pendingHi = none → s.busy = 0

theorem arqServiceLo_frame (s : ArqSys R) (r : R) : (arqServiceLo s r).busy = s.busy + 1 ∧
    (arqServiceLo s r).inCallback = s.inCallback ∧ (arqServiceLo s r).pendingLo = s.pendingLo := by
  rw [arqServiceLo_eq]
  split <;> exact ⟨rfl, rfl, rfl⟩

omit [DecidableEq R] in
theorem work_le {his' los' : List R} (hcb : s.inCallback = none) (hbusy : s.busy = 0) (hcb' : s'.inCallback = none)
    (hbusy' : s'.busy = 1) (hleft : s'.left his' los' < s.left his los) : s'.work his' los' ≤ s.work his los := by
  unfold ArqSys.work
  rw [hcb, hcb', hbusy, hbusy']
  omega

/-- **From a free engine** the next DMA, if there is one, is one step of the work. -/
theorem ArqReady.serve (h : ArqReady s his los) (hst : ArqStage s his los) :
    ∃ his' los', ArqServe (arqNextDMA s) his' los' ∧ (arqNextDMA s).work his' los' ≤ s.work his los := by
  obtain ⟨his', los', hn⟩ := arqNextDMA_cases h.rep h.idle.2.2.1
  have hinv := h.started hn
  have hst' := hst.started h.idle hn
  obtain ⟨hcb, hbusy, hph, -, hcl⟩ := h.idle
  refine ⟨his', los', ?_⟩
  generalize arqNextDMA s = s' at hn hinv hst'
  cases hn with
  | @hi r t los m hm =>
    refine ⟨⟨hinv, hst', fun _ hp => by cases hp⟩, work_le hcb hbusy hcb ?_ (left_startHi hst)⟩
    show s.busy + 1 = 1
    rw [hbusy]
  | @going r los hp =>
    obtain ⟨hb', hc', hp'⟩ := arqServiceLo_frame s r
    refine ⟨⟨hinv, hst', fun hn _ => ?_⟩, work_le hcb hbusy (by rw [hc', hcb]) (by rw [hb', hbusy]) (left_serviceLo hst hcb hp hcl)⟩
    rw [hp', hp] at hn
    cases hn
  | @lo r t m hp hm =>
    obtain ⟨hb', hc', hp'⟩ := arqServiceLo_frame { s with links := m, pendingLo := some r } r
    refine ⟨⟨hinv, hst', fun hn _ => ?_⟩, work_le hcb hbusy (by rw [hc', hcb]) (by rw [hb', hbusy]) ?_⟩
    · rw [hp'] at hn
      cases hn
    · rw [← left_take (m := m) hcb hp hcl]
      exact left_serviceLo (hst.take hcb hp hcl) hcb rfl hcl
  | none hp => exact ⟨⟨hinv, hst', fun _ _ => hbusy⟩, le_refl _⟩

theorem ArqServe.post (h : ArqServe s his los) {owner dir prio aramAddr mramAddr len : Nat} {cb : Option ArqCallback}
    (hg : arqGuard s (.post r owner dir prio aramAddr mramAddr len cb)) :
    ∃ his' los', ArqServe (arqPostRequestAsync s r owner dir prio aramAddr mramAddr len cb) his' los' := by
  have hst := h.stage.posted h.inv.toArqLists hg
  rw [arqPostRequestAsync_eq]
  split
  · rename_i hp
    obtain ⟨his', los', hs, -⟩ := (h.inv.postedIdle hg hp (h.calm hp.1 hp.2)).serve hst
    exact ⟨his', los', hs⟩
  · rename_i hp
    exact ⟨_, _, h.inv.postedBusy hg hp, hst, fun h1 h2 => absurd ⟨h1, h2⟩ hp⟩

theorem left_finished (s : ArqSys R) (q : ArqQ) (r : R) (his los : List R)
    (hal : s.callbackLo = none → (arqFinished s q r).activeLo = s.activeLo) : (arqFinished s q r).left his los = s.left his los := by
  have hlen : ∀ u, ((arqFinished s q r).req u).len = (s.req u).len := by
    intro u
    show (Function.update s.req r (.setState .finished (s.req r)) u).len = _
    by_cases hu : u = r
    · rw [hu, Function.update_self]
      rfl
    · rw [Function.update_of_ne hu]
  have hcl : (arqFinished s q r).callbackLo = s.callbackLo := rfl
  unfold ArqSys.left
  simp only [hlen, hcl]
  split
  · rename_i hc
    rw [hal hc]
  · rfl

theorem ArqServe.complete (h : ArqServe s his los) (hb : 0 < s.busy) (hcb : s.inCallback = none) :
    ∃ his' los', ArqServe (arqComplete s) his' los' ∧ (arqComplete s).work his' los' < s.work his los := by
  obtain ⟨-, hle, hc⟩ := h.inv.phase.complete hcb
  have hwork : s.work his los = 2 * s.left his los + 2 := by
    unfold ArqSys.work
    rw [hcb, if_pos rfl]
    omega
  generalize arqComplete s = s' at hc
  cases hc with
  | @hi r hp hlo =>
    refine ⟨his, los, ⟨h.inv.finishHi hcb hp hlo, h.stage.finishHi hcb hle hp, fun _ hn => ?_⟩, ?_⟩
    · have hn' : s.pendingHi = none := hn
      rw [hp] at hn'
      cases hn'
    · rw [hwork, ArqSys.work, left_finished s .hi r his los fun _ => (activeLo_of_none hcb).symm]
      show 2 * s.left his los + 2 * (s.busy - 1) + 1 < _
      omega
  | @lo r hp hc hhi hch =>
    refine ⟨his, los, ⟨h.inv.finishLo hcb hp hc hhi hch, h.stage.finishLo hcb hle hp hc, fun hn => ?_⟩, ?_⟩
    · have hn' : s.pendingLo = none := hn
      rw [hp] at hn'
      cases hn'
    · rw [hwork, ArqSys.work, left_finished s .lo r his los fun hn => by rw [hn] at hc; cases hc]
      show 2 * s.left his los + 2 * (s.busy - 1) + 1 < _
      omega
  | chunk hhi hch hc =>
    obtain ⟨his', los', hs, hw⟩ := (h.inv.chunkDone hcb hhi hch hc).serve (h.stage.idle hle)
    refine ⟨his', los', hs, lt_of_le_of_lt hw ?_⟩
    rw [hwork, ArqSys.work]
    show 2 * s.left his los + 2 * (s.busy - 1) + (if s.inCallback = none then 0 else 1) < _
    rw [hcb, if_pos rfl]
    omega

omit [DecidableEq R] in
theorem work_resumed (hleft : s'.left his los = s.left his los) (hbusy : s'.busy = s.busy) (hcb' : s'.inCallback = none)
    (hcb : s.inCallback ≠ none) : s'.work his los < s.work his los := by
  unfold ArqSys.work
  rw [hleft, hbusy, if_pos hcb', if_neg hcb]
  exact Nat.lt_succ_self _

theorem ArqServe.resume (h : ArqServe s his los) (hcb : s.inCallback ≠ none) :
    ∃ his' los', ArqServe (arqResume s) his' los' ∧ (arqResume s).work his' los' < s.work his los := by
  have hphase := h.inv.phase
  unfold ArqPhase at hphase
  unfold arqResume
  split
  · rename_i hq
    rw [hq] at hphase
    obtain ⟨his', los', hs, hw⟩ := (h.inv.resumeHi hq).serve (h.stage.resumeHi hq)
    refine ⟨his', los', hs, lt_of_le_of_lt hw (work_resumed ?_ rfl rfl hcb)⟩
    have hal : s.activeLo = s.pendingLo := by
      unfold ArqSys.activeLo
      rw [hq, if_neg (by simp)]
    unfold ArqSys.left
    rw [hal]
    rfl
  · rename_i hq
    rw [hq] at hphase
    obtain ⟨his', los', hs, hw⟩ := (h.inv.resumeLo hq).serve (h.stage.resumeLo hq)
    refine ⟨his', los', hs, lt_of_le_of_lt hw (work_resumed ?_ rfl rfl hcb)⟩
    have hc : ¬ s.callbackLo = none := fun hn => by
      have := hphase.2.2.1
      rw [hn] at this
      cases this
    unfold ArqSys.left
    rw [if_neg hc]
    rfl
  · rename_i hq
    exact absurd hq hcb

/-! ## Runs -/

theorem arqStart_stage (links : Mem ArqQ R) (req : R → ArqRequest) {chunkSize : Nat} (hc : 0 < chunkSize) :
    ArqStage (arqStart links req chunkSize) [] [] := by
  refine ⟨⟨(fun _ hx => by cases hx), (fun _ p hp => by cases hp), List.Pairwise.nil, (fun _ hx => by cases hx)⟩, (fun _ hp => by cases hp),
    List.Perm.refl _, fun r hr => ?_, (fun _ hr => by cases hr), (fun _ hr => by cases hr), (fun _ hk => by cases hk),
    (fun _ hr => by cases hr), fun r hr => ?_, List.Pairwise.nil, List.Pairwise.nil, (fun _ hx => by cases hx), (fun _ hx => by cases hx),
    fun hb => absurd rfl hb, hc⟩
  · rcases hr with hr | hr | ⟨hr, -⟩ <;> cases hr
  · rcases hr with hr | hr <;> cases hr

end Start

section Run
variable [DecidableEq R] [Fintype R]

/-- No request is removed. -/
def arqTransfers (_ : ArqSys R) : ArqEvent R → Prop
  | .post .. => True
  | .complete => True
  | .resume => True
  | _ => False

instance (s : ArqSys R) : ∀ e, Decidable (arqTransfers s e)
  | .post .. => inferInstanceAs (Decidable True)
  | .complete => inferInstanceAs (Decidable True)
  | .resume => inferInstanceAs (Decidable True)
  | .remove _ => inferInstanceAs (Decidable False)
  | .removeOwner _ => inferInstanceAs (Decidable False)
  | .flush => inferInstanceAs (Decidable False)

theorem ArqServe.step (h : ArqServe s his los) {e : ArqEvent R} (he : (arqSystem.restrict arqTransfers).enabled s e) :
    ∃ his' los', ArqServe (arqNext s e) his' los' := by
  obtain ⟨hg, ht⟩ := he
  cases e with
  | post r owner dir prio aramAddr mramAddr len cb => exact h.post hg
  | complete =>
    obtain ⟨his', los', hs, -⟩ := h.complete hg.1 hg.2
    exact ⟨his', los', hs⟩
  | resume =>
    obtain ⟨his', los', hs, -⟩ := h.resume hg
    exact ⟨his', los', hs⟩
  | remove r => cases ht
  | removeOwner owner => cases ht
  | flush => cases ht

theorem arq_serve_run {links : Mem ArqQ R} {req : R → ArqRequest} {chunkSize : Nat} {es : List (ArqEvent R)} (hc : 0 < chunkSize)
    (hl : (arqSystem.restrict arqTransfers).Legal (arqStart links req chunkSize) es) :
    ∃ his los, ArqServe (arqSystem.run (arqStart links req chunkSize) es) his los := by
  obtain ⟨his, los, h⟩ := hl.invariant (I := fun s => ∃ his los, ArqServe s his los) (fun _ _ ⟨_, _, hs⟩ he => hs.step he)
    ⟨[], [], arqStart_inv links req chunkSize, arqStart_stage links req hc, fun _ _ => rfl⟩
  exact ⟨his, los, h⟩

omit [Fintype R] [DecidableEq R] in
/-- With no DMA in flight and no callback running every posting was called back. -/
theorem ArqServe.done (h : ArqServe s his los) (hb : s.busy = 0) (hcb : s.inCallback = none) : ∀ k < s.posts.length, k ∈ s.called := by
  have hphase := h.inv.phase
  unfold ArqPhase at hphase
  rw [hcb] at hphase
  obtain ⟨-, -, h3, h4⟩ := hphase
  have hnone : s.pendingHi = none ∧ s.pendingLo = none := by
    constructor
    · cases hp : s.pendingHi with
      | none => rfl
      | some r =>
        rw [if_pos (.inl (by rw [hp]; rfl)), hb] at h3
        cases h3
    · cases hp : s.pendingLo with
      | none => rfl
      | some r =>
        rw [if_pos (.inr (by rw [hp]; rfl)), hb] at h3
        cases h3
  obtain ⟨rfl, rfl⟩ := h4 hnone.1 hnone.2 hb
  intro k hk
  refine (h.stage.cases hk).resolve_right ?_
  rintro ⟨r, hr, -⟩
  rcases mem_live.1 hr with hr | hr | hr | hr
  · rw [activeHi_of_none hcb, hnone.1] at hr
    cases hr
  · rw [activeLo_of_none hcb, hnone.2] at hr
    cases hr
  · cases hr
  · cases hr

omit [Fintype R] [DecidableEq R] in
theorem ArqServe.sent_le (h : ArqServe s his los) {k : Nat} {p : ArqPost} (hp : s.posts[k]? = some p) : arqSent s.log k ≤ p.len := by
  have hsent : s.Sent k → arqSent s.log k ≤ p.len := by
    rintro ⟨q, hq, hs⟩
    rw [hp] at hq
    cases hq
    exact hs.le
  rcases h.stage.cases (List.getElem?_eq_some_iff.1 hp).1 with hk | ⟨r, hr, rfl⟩
  · exact hsent (h.stage.sentCalled k hk)
  · have hrest : (r ∈ his ∨ r ∈ los ∨ (s.activeLo = some r ∧ s.callbackLo = none)) → arqSent s.log (s.post r) ≤ p.len := by
      intro hr
      obtain ⟨q, hq, hrest⟩ := h.stage.rest r hr
      rw [hp] at hq
      cases hq
      have := hrest.sum
      omega
    rcases mem_live.1 hr with hr | hr | hr | hr
    · exact hsent (h.stage.sentHi r hr)
    · cases hc : s.callbackLo with
      | none => exact hrest (.inr (.inr ⟨hr, hc⟩))
      | some c => exact hsent (h.stage.sentLo r hr (by rw [hc]; rfl))
    · exact hrest (.inl hr)
    · exact hrest (.inr (.inl hr))

/-- **Every posting is called back in the end**: the interrupts and returns that are due come to an end. -/
theorem ArqServe.progress : ∀ (n : Nat) {s : ArqSys R} {his los : List R}, ArqServe s his los → s.work his los ≤ n →
    ∃ es : List (ArqEvent R), (∀ e ∈ es, e = .complete ∨ e = .resume) ∧ (arqSystem.restrict arqTransfers).Legal s es ∧
      ∀ k < (arqSystem.run s es).posts.length, k ∈ (arqSystem.run s es).called := by
  intro n
  induction n with
  | zero =>
    intro s his los h hw
    unfold ArqSys.work at hw
    have hcb : s.inCallback = none := by
      by_contra hne
      rw [if_neg hne] at hw
      omega
    exact ⟨[], (fun _ he => by cases he), trivial, h.done (by omega) hcb⟩
  | succ n ih =>
    intro s his los h hw
    -- the one event that is due, if there is one
    have hnext : ∀ e : ArqEvent R, (e = .complete ∨ e = .resume) → arqGuard s e →
        (∃ his' los', ArqServe (arqNext s e) his' los' ∧ (arqNext s e).work his' los' < s.work his los) →
        ∃ es : List (ArqEvent R), (∀ e ∈ es, e = .complete ∨ e = .resume) ∧ (arqSystem.restrict arqTransfers).Legal s es ∧
          ∀ k < (arqSystem.run s es).posts.length, k ∈ (arqSystem.run s es).called := by
      rintro e he hg ⟨his', los', hs, hlt⟩
      obtain ⟨es, hes, hl, hdone⟩ := ih hs (by omega)
      refine ⟨e :: es, fun e' he' => ?_, ⟨⟨hg, ?_⟩, hl⟩, hdone⟩
      · rcases List.mem_cons.1 he' with rfl | he'
        · exact he
        · exact hes e' he'
      · rcases he with rfl | rfl <;> exact trivial
    by_cases hcb : s.inCallback = none
    · rcases Nat.eq_zero_or_pos s.busy with hb | hb
      · exact ⟨[], (fun _ he => by cases he), trivial, h.done hb hcb⟩
      · exact hnext .complete (.inl rfl) ⟨hb, hcb⟩ (h.complete hb hcb)
    · exact hnext .resume (.inr rfl) hcb (h.resume hcb)

/-- **The transfer law**, in one state: at most one DMA is in flight, and none was started during another; the DMAs of a posting are
one after another from its start, and stay inside it; a posting is called back once, after all its DMAs, with the engine idle; postings
of one priority are served in order; and a DMA started while high priority waits is for the oldest of these. -/
structure ArqLawful (s : ArqSys R) : Prop where
  single : s.busy ≤ 1 ∧ ∀ x ∈ s.log, x.busy = 0
  cover : ∀ k (p : ArqPost), s.posts[k]? = some p → p.Pieces 0 (arqOf s.log k) ∧ arqSent s.log k ≤ p.len
  called : ∀ k ∈ s.called, ∃ p, s.posts[k]? = some p ∧ arqSent s.log k = p.len
  after : (s.inCallback ≠ none → s.busy = 0) ∧ (s.busy ≠ 0 → ∀ x, s.log.getLast? = some x → x.post ∉ s.called)
  once : s.called.Nodup
  done : s.busy = 0 → s.inCallback = none → ∀ k < s.posts.length, k ∈ s.called
  order : s.log.Pairwise fun x y => arqIsHi s.posts x.post = arqIsHi s.posts y.post → x.post ≤ y.post
  oldest : ∀ x ∈ s.log, ∀ k, x.oldest = some k → x.post = k

omit [Fintype R] [DecidableEq R] in
theorem ArqServe.lawful (h : ArqServe s his los) : ArqLawful s := by
  have hphase := h.inv.phase
  unfold ArqPhase at hphase
  have hbusy : s.busy ≤ 1 ∧ (s.inCallback ≠ none → s.busy = 0) := by
    split at hphase
    · rename_i hcb
      refine ⟨?_, fun hne => absurd hcb hne⟩
      have h3 := hphase.2.2.1
      split at h3
      · exact h3.le
      · exact h3
    · exact ⟨by rw [hphase.1]; exact Nat.zero_le 1, fun _ => hphase.1⟩
    · exact ⟨by rw [hphase.1]; exact Nat.zero_le 1, fun _ => hphase.1⟩
  exact ⟨⟨hbusy.1, fun x hx => (h.inv.log x hx).1⟩, fun k p hp => ⟨h.stage.log.pieces k p hp, h.sent_le hp⟩, h.stage.sentCalled,
    ⟨hbusy.2, h.stage.flight⟩, (List.nodup_append.1 h.stage.nodup).1, h.done, h.stage.log.order, h.stage.log.oldest⟩

/-- **The transfer law**, for every chunk size and every order of postings, interrupts and returns from callbacks; and from every state
the interrupts and returns that are due lead to one where every posting was called back. -/
theorem arq_transfer_law {links : Mem ArqQ R} {req : R → ArqRequest} {chunkSize : Nat} {es : List (ArqEvent R)} (hc : 0 < chunkSize)
    (hl : (arqSystem.restrict arqTransfers).Legal (arqStart links req chunkSize) es) :
    ArqLawful (arqSystem.run (arqStart links req chunkSize) es) ∧
      ∃ es' : List (ArqEvent R), (∀ e ∈ es', e = .complete ∨ e = .resume) ∧
        (arqSystem.restrict arqTransfers).Legal (arqStart links req chunkSize) (es ++ es') ∧
        ∀ k < (arqSystem.run (arqStart links req chunkSize) (es ++ es')).posts.length,
          k ∈ (arqSystem.run (arqStart links req chunkSize) (es ++ es')).called := by
  obtain ⟨his, los, h⟩ := arq_serve_run hc hl
  refine ⟨h.lawful, ?_⟩
  obtain ⟨es', hes, hl', hdone⟩ := h.progress _ (le_refl _)
  refine ⟨es', hes, System.legal_append hl hl', ?_⟩
  rw [System.run_append]
  exact hdone

end Run

end Stage

/-- A request of low priority in two chunks, with one of high priority between them, and its callback posting it again. -/
theorem arq_transfer_law_sample :
    ArqLawful (arqSystem.run arqThree
      [.post 0 1 0 0 0 0 64 none, .post 1 2 0 0 0 0 32 none, .post 2 2 0 1 0 0 32 none, .complete, .complete,
        .post 2 2 0 1 0 0 96 none, .resume, .complete, .resume, .complete]) := by
  refine (arq_transfer_law (by decide) ?_).1
  decide +kernel

end Libogc
