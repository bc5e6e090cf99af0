import Libogc.Lib.Numerals
import Mathlib.Data.Fintype.Card
import Mathlib.Tactic.Common
/-!
# Runs — transition systems and the invariant rule

A system is a guard and a transition function.  A run is the list of its events; `Legal` says that each event was enabled
where it happened.  An invariant is proved of one step (`Legal.invariant`) and holds of every state a legal run reaches.
`tally` counts the agents a predicate holds of, for invariants that are sums over all of them.
-/
namespace Runs

structure System (S E : Type) where
  enabled : S → E → Prop
  next : S → E → S

variable {S E : Type}

def System.run (sys : System S E) (s : S) (es : List E) : S := es.foldl sys.next s

def System.Legal (sys : System S E) : S → List E → Prop
  | _, [] => True
  | s, e :: es => sys.enabled s e ∧ sys.Legal (sys.next s e) es

/-- The runs of a system whose steps all meet a condition. -/
def System.restrict (sys : System S E) (P : S → E → Prop) : System S E where
  enabled s e := sys.enabled s e ∧ P s e
  next := sys.next

instance (sys : System S E) (P : S → E → Prop) (s : S) (e : E) [Decidable (sys.enabled s e)] [Decidable (P s e)] :
    Decidable ((sys.restrict P).enabled s e) := inferInstanceAs (Decidable (_ ∧ _))

theorem System.run_append (sys : System S E) (s : S) (es es' : List E) :
    sys.run s (es ++ es') = sys.run (sys.run s es) es' := List.foldl_append

theorem System.legal_append {sys : System S E} : ∀ {s : S} {es es' : List E}, sys.Legal s es →
    sys.Legal (sys.run s es) es' → sys.Legal s (es ++ es')
  | _, [], _, _, h' => h'
  | _, _ :: _, _, h, h' => ⟨h.1, System.legal_append h.2 h'⟩

theorem System.Legal.left {sys : System S E} : ∀ {s : S} {es es' : List E}, sys.Legal s (es ++ es') → sys.Legal s es
  | _, [], _, _ => trivial
  | _, _ :: _, _, h => ⟨h.1, System.Legal.left h.2⟩

theorem System.Legal.right {sys : System S E} {es es' : List E} : ∀ {s : S}, sys.Legal s (es ++ es') → sys.Legal (sys.run s es) es' := by
  induction es with
  | nil => exact fun h => h
  | cons e es ih => exact fun h => ih h.2

theorem System.Legal.of_restrict {sys : System S E} {P : S → E → Prop} {es : List E} :
    ∀ {s : S}, (sys.restrict P).Legal s es → sys.Legal s es := by
  induction es with
  | nil => exact fun _ => trivial
  | cons e es ih => exact fun h => ⟨h.1.1, ih h.2⟩

/-- A legal run of events that can all be decided is itself decidable. -/
instance System.decLegal (sys : System S E) [∀ s e, Decidable (sys.enabled s e)] :
    ∀ (s : S) (es : List E), Decidable (sys.Legal s es)
  | _, [] => inferInstanceAs (Decidable True)
  | s, e :: es =>
    have := System.decLegal sys (sys.next s e) es
    inferInstanceAs (Decidable (_ ∧ _))

/-- **The invariant rule**: what every enabled step keeps, every legal run keeps. -/
theorem System.Legal.invariant {sys : System S E} {I : S → Prop} (hstep : ∀ s e, I s → sys.enabled s e → I (sys.next s e)) {es : List E} :
    ∀ {s : S}, I s → sys.Legal s es → I (sys.run s es) := by
  induction es with
  | nil => exact fun hs _ => hs
  | cons e es ih => exact fun {s} hs hl => ih (hstep s e hs hl.1) hl.2

/-- Two conditions on a step that are the same where an invariant holds, and keep it, hold along the same runs. -/
theorem System.Legal.restrict_iff {sys : System S E} {P Q : S → E → Prop} {I : S → Prop}
    (hiff : ∀ s e, I s → sys.enabled s e → (P s e ↔ Q s e)) (hkeep : ∀ s e, I s → sys.enabled s e → P s e → I (sys.next s e))
    {es : List E} : ∀ {s : S}, I s → sys.Legal s es → ((sys.restrict P).Legal s es ↔ (sys.restrict Q).Legal s es) := by
  induction es with
  | nil => exact fun _ _ => Iff.rfl
  | cons e es ih =>
    intro s hs hl
    have hstep := hiff s e hs hl.1
    constructor
    · rintro ⟨⟨-, hp⟩, hrest⟩
      exact ⟨⟨hl.1, hstep.1 hp⟩, (ih (hkeep s e hs hl.1 hp) hl.2).1 hrest⟩
    · rintro ⟨⟨-, hq⟩, hrest⟩
      exact ⟨⟨hl.1, hstep.2 hq⟩, (ih (hkeep s e hs hl.1 (hstep.2 hq)) hl.2).2 hrest⟩

/-- A condition on the steps that decides whether the invariant goes on: the steps of a run all meet it exactly when the invariant holds
of every state on the way. -/
theorem System.Legal.always_iff {sys : System S E} {P : S → E → Prop} {I : S → Prop}
    (hstep : ∀ s e, I s → sys.enabled s e → (I (sys.next s e) ↔ P s e)) {es : List E} :
    ∀ {s : S}, I s → sys.Legal s es → ((sys.restrict P).Legal s es ↔ ∀ pre, pre <+: es → I (sys.run s pre)) := by
  induction es with
  | nil =>
    refine fun hs _ => ⟨fun _ pre hpre => ?_, fun _ => trivial⟩
    rw [List.prefix_nil.mp hpre]
    exact hs
  | cons e es ih =>
    rintro s hs ⟨he, hl⟩
    constructor
    · rintro ⟨⟨-, hp⟩, hrest⟩ pre hpre
      rcases List.prefix_cons_iff.mp hpre with rfl | ⟨rest, rfl, hrest'⟩
      · exact hs
      · exact (ih ((hstep s e hs he).2 hp) hl).1 hrest rest hrest'
    · intro hall
      have hnext : I (sys.next s e) := hall [e] (List.cons_prefix_cons.mpr ⟨rfl, List.nil_prefix⟩)
      refine ⟨⟨he, (hstep s e hs he).1 hnext⟩, (ih hnext hl).2 fun pre hpre => ?_⟩
      exact hall (e :: pre) (List.cons_prefix_cons.mpr ⟨rfl, hpre⟩)

/-! ## Counting agents -/

section Tally
variable {A : Type} [Fintype A] {p q : A → Prop} [DecidablePred p] [DecidablePred q]

def tally (p : A → Prop) [DecidablePred p] : Nat := (Finset.univ.filter p).card

theorem tally_congr (h : ∀ a, p a ↔ q a) : tally p = tally q := by
  unfold tally
  rw [Finset.filter_congr fun a _ => h a]

theorem tally_insert {a : A} (hp : ¬ p a) (hq : q a) (h : ∀ b, b ≠ a → (q b ↔ p b)) : tally q = tally p + 1 := by
  classical
  have he : Finset.univ.filter q = insert a (Finset.univ.filter p) := by
    ext b
    by_cases hb : b = a
    · subst hb; simp [hq]
    · simp [hb, h b hb]
  unfold tally
  rw [he, Finset.card_insert_of_notMem (by simp [hp])]

theorem tally_le : tally p ≤ Fintype.card A := Finset.card_filter_le _ _

theorem tally_pos {a : A} (h : p a) : 0 < tally p := Finset.card_pos.2 ⟨a, by simpa using h⟩

theorem tally_eq_zero (h : ∀ a, ¬ p a) : tally p = 0 := by
  unfold tally
  rw [Finset.card_eq_zero, Finset.filter_eq_empty_iff]
  exact fun a _ => h a

end Tally

end Runs
