import Mathlib.Data.List.Basic

/-! Runs of an executable labelled transition system. An action that is not
enabled in a state has no successor there, and the run stops before it. -/
namespace Beetle.Lib
variable {σ α : Type*}

/-- Carry out a list of actions; `none` when one of them is not enabled. -/
def exec (step : σ → α → Option σ) : List α → σ → Option σ
  | [], s => some s
  | a :: as, s => (step s a).bind (exec step as)

/-- `P` holds in every state the run reaches, the first one included. -/
def Always (step : σ → α → Option σ) (P : σ → Prop) : List α → σ → Prop
  | [], s => P s
  | a :: as, s => P s ∧ ∀ t, step s a = some t → Always step P as t

/-- Every step of the run is taken in a state that meets the condition on it. -/
def Meets (step : σ → α → Option σ) (C : σ → α → Prop) : List α → σ → Prop
  | [], _ => True
  | a :: as, s => ∀ t, step s a = some t → C s a ∧ Meets step C as t

variable {step : σ → α → Option σ} {I : σ → Prop} {C : σ → α → Prop} {s : σ} {as : List α} {P : σ → Prop}
  {C D : σ → α → Prop}

instance decidableMeets {C : σ → α → Prop} [∀ s a, Decidable (C s a)] :
    ∀ (as : List α) (s : σ), Decidable (Meets step C as s)
  | [], _ => .isTrue trivial
  | a :: as, s =>
    match h : step s a with
    | none => .isTrue fun t ht => by rw [h] at ht; cases ht
    | some t =>
      have := decidableMeets (C := C) as t
      decidable_of_iff (C s a ∧ Meets step C as t)
        ⟨fun hc u hu => Option.some.inj (h.symm.trans hu) ▸ hc, fun hc => hc t h⟩

@[simp] theorem exec_nil (s : σ) : exec step [] s = some s := rfl

@[simp] theorem exec_cons (a : α) (as : List α) (s : σ) :
    exec step (a :: as) s = (step s a).bind (exec step as) := rfl

theorem exec_append (as bs : List α) (s : σ) : exec step (as ++ bs) s = (exec step as s).bind (exec step bs) := by
  induction as generalizing s with
  | nil => rfl
  | cons a as ih =>
    rw [List.cons_append, exec_cons, exec_cons, Option.bind_assoc]
    exact congrArg _ (funext ih)

/-- Where the invariant lets every action be taken and is kept by it, every run goes through. -/
theorem exec_of_enabled (enabled : ∀ s a, I s → ∃ t, step s a = some t ∧ I t)
    (as : List α) (s : σ) (hs : I s) : ∃ t, exec step as s = some t := by
  induction as generalizing s with
  | nil => exact ⟨s, rfl⟩
  | cons a as ih =>
    obtain ⟨u, hu, hinv⟩ := enabled s a hs
    obtain ⟨t, ht⟩ := ih u hinv
    exact ⟨t, by rw [exec_cons, hu, Option.bind_some, ht]⟩

/-- The invariant rule: what the first state has and every step keeps, every
state of every run has. -/
theorem always_of_invariant (keep : ∀ s a t, I s → step s a = some t → I t) (as : List α) (s : σ) (hs : I s) :
    Always step I as s := by
  induction as generalizing s with
  | nil => exact hs
  | cons a as ih => exact ⟨hs, fun t ht => ih t (keep s a t hs ht)⟩

/-- The invariant rule for runs whose steps all meet a condition. -/
theorem always_of_meets {I P : σ → Prop} (keep : ∀ s a t, I s → C s a → step s a = some t → I t) (use : ∀ s, I s → P s)
    (as : List α) (s : σ) (hs : I s) (hm : Meets step C as s) : Always step P as s := by
  induction as generalizing s with
  | nil => exact use s hs
  | cons a as ih =>
    refine ⟨use s hs, fun t ht => ?_⟩
    obtain ⟨hc, hrest⟩ := hm t ht
    exact ih t (keep s a t hs hc ht) hrest

/-- Where a step that misses the condition leads at once to a state without
`P`, a run that keeps `P` throughout has only steps that meet it. -/
theorem meets_of_always {J P : σ → Prop} (keep : ∀ s a t, J s → step s a = some t → J t)
    (break_ : ∀ s a t, J s → step s a = some t → ¬ C s a → ¬ P t)
    (as : List α) (s : σ) (hs : J s) (ha : Always step P as s) : Meets step C as s := by
  induction as generalizing s with
  | nil => trivial
  | cons a as ih =>
    intro t ht
    have hrest := ha.2 t ht
    refine ⟨?_, ih t (keep s a t hs ht) hrest⟩
    by_contra hc
    refine break_ s a t hs ht hc ?_
    cases as with
    | nil => exact hrest
    | cons b bs => exact hrest.1

/-- Where a step that misses the condition can be followed by one that misses the
other, runs that leave no room for such a step meet the condition. The step that
follows may be asked to stand in a relation to those before it. -/
theorem meets_of_next {J : σ → Prop} {R : α → α → Prop} (keep : ∀ s a t, J s → step s a = some t → J t)
    (break_ : ∀ s a t, J s → step s a = some t → ¬ C s a → ∀ before : List α,
      ∃ b u, (∀ c ∈ before, R c b) ∧ step t b = some u ∧ ¬ D t b) (as before : List α) (s : σ) (hs : J s)
    (h : ∀ done b, done <+: as → (∀ c ∈ before ++ done, R c b) → Meets step D (done ++ [b]) s) : Meets step C as s := by
  induction as generalizing before s with
  | nil => trivial
  | cons a as ih =>
    intro t ht
    constructor
    · by_contra hc
      obtain ⟨b, u, hbefore, hu, hd⟩ := break_ s a t hs ht hc (before ++ [a])
      have hrun := h [a] b (List.prefix_append [a] as) hbefore t ht
      exact hd (hrun.2 u hu).1
    · apply ih (before ++ [a]) t (keep s a t hs ht)
      intro done b hdone hbefore
      have hrun := h (a :: done) b ((List.prefix_cons_inj a).mpr hdone) (by simpa using hbefore)
      exact (hrun t ht).2

theorem Meets.of_prefix {as bs : List α} (hm : Meets step C bs s) (h : as <+: bs) : Meets step C as s := by
  induction as generalizing bs s with
  | nil => trivial
  | cons a as ih =>
    obtain ⟨rest, rfl⟩ := h
    exact fun t ht => ⟨(hm t ht).1, ih (hm t ht).2 (List.prefix_append as rest)⟩

section
variable (keep : ∀ s a t, I s → C s a → step s a = some t → I t)
include keep

/-- A run whose steps all meet the one condition, and one more step, meets what the
invariant gives of a step. -/
theorem meets_concat_of_meets (use : ∀ s a t, I s → step s a = some t → D s a)
    (as : List α) (b : α) (s : σ) (hs : I s) (hm : Meets step C as s) : Meets step D (as ++ [b]) s := by
  induction as generalizing s with
  | nil => exact fun t ht => ⟨use s b t hs ht, trivial⟩
  | cons a as ih =>
    intro t ht
    obtain ⟨hc, hrest⟩ := hm t ht
    exact ⟨use s a t hs ht, ih t (keep s a t hs hc ht) hrest⟩

/-- Where the one condition keeps the invariant and gives the other, runs that meet
the one meet the other. -/
theorem meets_of_meets (use : ∀ s a t, I s → C s a → step s a = some t → D s a)
    (as : List α) (s : σ) (hs : I s) (hm : Meets step C as s) : Meets step D as s := by
  induction as generalizing s with
  | nil => trivial
  | cons a as ih =>
    intro t ht
    obtain ⟨hc, hrest⟩ := hm t ht
    exact ⟨use s a t hs hc ht, ih t (keep s a t hs hc ht) hrest⟩

end

/-- Where the invariant gives what is asked of a step, every run meets it. -/
theorem meets_of_invariant (keep : ∀ s a t, I s → step s a = some t → I t)
    (use : ∀ s a, I s → C s a) (as : List α) (s : σ) (hs : I s) : Meets step C as s := by
  induction as generalizing s with
  | nil => trivial
  | cons a as ih => exact fun t ht => ⟨use s a hs, ih t (keep s a t hs ht)⟩

theorem Always.mono {P Q : σ → Prop} (h : ∀ s, P s → Q s) (ha : Always step P as s) : Always step Q as s := by
  induction as generalizing s with
  | nil => exact h s ha
  | cons a as ih => exact ⟨h s ha.1, fun t ht => ih (ha.2 t ht)⟩

theorem Meets.mono (hm : Meets step C as s) (h : ∀ s, ∀ a ∈ as, C s a → D s a) : Meets step D as s := by
  induction as generalizing s with
  | nil => trivial
  | cons a as ih =>
    intro t ht
    obtain ⟨hc, hrest⟩ := hm t ht
    exact ⟨h s a (by simp) hc, ih hrest fun s b hb => h s b (by simp [hb])⟩

theorem Always.head (ha : Always step P as s) : P s := by
  cases as with
  | nil => exact ha
  | cons a as => exact ha.1

/-- What every state of the run has may be used to show that a step that misses
the condition breaks it. -/
theorem meets_of_always_self (break_ : ∀ s a t, P s → step s a = some t → ¬ C s a → ¬ P t)
    (as : List α) (s : σ) (ha : Always step P as s) : Meets step C as s := by
  induction as generalizing s with
  | nil => trivial
  | cons a as ih =>
    intro t ht
    have hrest := ha.2 t ht
    refine ⟨?_, ih t hrest⟩
    by_contra hc
    exact break_ s a t ha.1 ht hc hrest.head

theorem Always.last {s t : σ} (ha : Always step P as s) (ht : exec step as s = some t) : P t := by
  induction as generalizing s with
  | nil => cases ht; exact ha
  | cons a as ih =>
    obtain ⟨u, hu, hrest⟩ := Option.bind_eq_some_iff.mp ht
    exact ih (ha.2 u hu) hrest

/-- Where every step keeps the invariant or breaks `P`, and the invariant gives `P`, the runs
that keep `P` are those whose steps all meet the condition. -/
theorem always_iff_meets {I P : σ → Prop} (keep : ∀ s a t, I s → C s a → step s a = some t → I t) (use : ∀ s, I s → P s)
    (break_ : ∀ s a t, I s → step s a = some t → ¬ C s a → ¬ P t)
    (as : List α) (s : σ) (hs : I s) : Always step P as s ↔ Meets step C as s := by
  constructor
  · intro ha
    induction as generalizing s with
    | nil => trivial
    | cons a as ih =>
      intro t ht
      have hc : C s a := by_contra fun hc => break_ s a t hs ht hc (ha.2 t ht).head
      exact ⟨hc, ih t (keep s a t hs hc ht) (ha.2 t ht)⟩
  · exact always_of_meets keep use as s hs

end Beetle.Lib
