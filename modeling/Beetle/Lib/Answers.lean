import Mathlib.Data.Option.Basic

/-! Components that are called and answer: one stands for another where it gives the same answers to all calls. -/
namespace Beetle.Lib
variable {σ τ α β : Type*}

/-- Make the calls one after the other, and collect the answers; `none` when a call fails. -/
def callAll (call : σ → α → Option (β × σ)) : List α → σ → Option (List β × σ)
  | [], s => some ([], s)
  | a :: as, s => (call s a).bind fun (b, t) => (callAll call as t).map fun (bs, u) => (b :: bs, u)

/-- Related states give the same answer to every call that the specification allows, and are related after it. -/
def Simulates (R : σ → τ → Prop) (call : σ → α → Option (β × σ)) (spec : τ → α → Option (β × τ)) : Prop :=
  ∀ s t a b t', R s t → spec t a = some (b, t') → ∃ s', call s a = some (b, s') ∧ R s' t'

variable {R : σ → τ → Prop} {call : σ → α → Option (β × σ)} {spec : τ → α → Option (β × τ)}

theorem callAll_cons_eq_some {a : α} {as : List α} {s : σ} {answers : List β} {u : σ} :
    callAll call (a :: as) s = some (answers, u) ↔
      ∃ b t bs, call s a = some (b, t) ∧ callAll call as t = some (bs, u) ∧ answers = b :: bs := by
  simp only [callAll, Option.bind_eq_some_iff, Option.map_eq_some_iff, Prod.exists, Prod.mk.injEq]
  constructor
  · rintro ⟨b, t, hcall, bs, _, hrest, hanswers, rfl⟩
    exact ⟨b, t, bs, hcall, hrest, hanswers.symm⟩
  · rintro ⟨b, t, bs, hcall, hrest, hanswers⟩
    exact ⟨b, t, hcall, bs, u, hrest, hanswers.symm, rfl⟩

/-- A simulation of one call is a simulation of all. -/
theorem Simulates.callAll (h : Simulates R call spec) (calls : List α) {s : σ} {t t' : τ} {answers : List β}
    (hst : R s t) (hspec : Lib.callAll spec calls t = some (answers, t')) :
    ∃ s', Lib.callAll call calls s = some (answers, s') ∧ R s' t' := by
  induction calls generalizing s t answers with
  | nil =>
    cases hspec
    exact ⟨s, rfl, hst⟩
  | cons a as ih =>
    obtain ⟨b, u, bs, hfirst, hrest, rfl⟩ := callAll_cons_eq_some.mp hspec
    obtain ⟨v, hcall, hv⟩ := h s t a b u hst hfirst
    obtain ⟨w, hcalls, hw⟩ := ih hv hrest
    exact ⟨w, callAll_cons_eq_some.mpr ⟨b, v, bs, hcall, hcalls, rfl⟩, hw⟩

/-- A component that answers every call answers all calls. -/
theorem exists_callAll (htotal : ∀ t a, ∃ b t', spec t a = some (b, t')) (calls : List α) (t : τ) :
    ∃ answers t', Lib.callAll spec calls t = some (answers, t') := by
  induction calls generalizing t with
  | nil => exact ⟨[], t, rfl⟩
  | cons a as ih =>
    obtain ⟨b, u, hfirst⟩ := htotal t a
    obtain ⟨bs, v, hrest⟩ := ih u
    exact ⟨b :: bs, v, callAll_cons_eq_some.mpr ⟨b, u, bs, hfirst, hrest, rfl⟩⟩

end Beetle.Lib
