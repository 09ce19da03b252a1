import Mathlib.Data.Finset.Card

/-! Choosing from a list in passes, each of which lets through more than the one before.
The result is the same as if the first of the best was chosen over and over. -/
namespace Beetle.Lib
variable {α κ : Type*}

/-- The first of the best of the candidates whose key is not chosen yet. -/
structure FirstBest (key : α → κ) (rank : List α → α → Nat) (candidates chosen : List α) (a : α) : Prop where
  fresh : key a ∉ chosen.map key
  best : ∀ b ∈ candidates, key b ∉ chosen.map key → rank chosen a ≤ rank chosen b
  first : ∃ earlier later, candidates = earlier ++ a :: later ∧
    ∀ b ∈ earlier, key b ∉ chosen.map key → rank chosen a < rank chosen b

/-- Every choice was of the first of the best. -/
def Greedy (key : α → κ) (rank : List α → α → Nat) (candidates chosen : List α) : Prop :=
  ∀ before a after, chosen = before ++ a :: after → FirstBest key rank candidates before a

/-- No candidate of a rank below this one is left. -/
def PassedBy (key : α → κ) (rank : List α → α → Nat) (candidates chosen : List α) (pass : Nat) : Prop :=
  ∀ b ∈ candidates, key b ∉ chosen.map key → pass ≤ rank chosen b

variable {key : α → κ} {rank : List α → α → Nat} {bound pass passes : Nat} {candidates chosen : List α}

theorem greedy_nil : Greedy key rank candidates [] := by
  intro before a after h
  simp at h

section
variable (h : Greedy key rank candidates chosen)
include h

theorem Greedy.concat {a : α} (ha : FirstBest key rank candidates chosen a) :
    Greedy key rank candidates (chosen ++ [a]) := by
  intro before b after heq
  rcases List.eq_nil_or_concat after with rfl | ⟨rest, last, rfl⟩
  · obtain ⟨rfl, hb⟩ := List.append_inj' heq rfl
    rwa [← (List.cons.inj hb).1]
  · have hsplit : chosen ++ [a] = (before ++ b :: rest) ++ [last] := by simp [heq]
    exact h before b rest (List.append_inj' hsplit rfl).1

theorem Greedy.nodup : (chosen.map key).Nodup := by
  induction chosen using List.reverseRecOn with
  | nil => exact List.nodup_nil
  | append_singleton chosen a ih =>
    have hbefore : Greedy key rank candidates chosen := by
      intro before b after heq
      exact h before b (after ++ [a]) (by simp [heq])
    rw [List.map_append, List.map_singleton, List.nodup_append_comm, List.singleton_append, List.nodup_cons]
    exact ⟨(h chosen a [] rfl).fresh, ih hbefore⟩

theorem Greedy.mem {a : α} (ha : a ∈ chosen) : a ∈ candidates := by
  obtain ⟨before, after, heq⟩ := List.append_of_mem ha
  obtain ⟨earlier, later, hcandidates, -⟩ := (h before a after heq).first
  rw [hcandidates]
  exact List.mem_append_right _ List.mem_cons_self

end

theorem PassedBy.concat (grows : ∀ chosen a b, rank chosen b ≤ rank (chosen ++ [a]) b)
    (h : PassedBy key rank candidates chosen pass) (a : α) : PassedBy key rank candidates (chosen ++ [a]) pass := by
  intro b hb hfresh
  have hbefore : key b ∉ chosen.map key := by
    intro hmem
    exact hfresh (by simp [List.mem_map.mp hmem])
  exact (h b hb hbefore).trans (grows chosen a b)

variable [DecidableEq κ]

/-- One pass over the candidates, with what was chosen so far. What is best for a
candidate to be chosen has rank 0, and of each key only one is chosen. -/
def pickPass (key : α → κ) (rank : List α → α → Nat) (bound pass : Nat) : List α → List α → List α
  | chosen, [] => chosen
  | chosen, a :: candidates =>
    if chosen.length < bound ∧ key a ∉ chosen.map key ∧ rank chosen a ≤ pass then
      pickPass key rank bound pass (chosen ++ [a]) candidates
    else pickPass key rank bound pass chosen candidates

def pickPasses (key : α → κ) (rank : List α → α → Nat) (bound : Nat) (candidates : List α) : Nat → List α
  | 0 => []
  | passes + 1 => pickPass key rank bound passes (pickPasses key rank bound candidates passes) candidates

theorem pickPass_of_full (h : bound ≤ chosen.length) (candidates : List α) :
    pickPass key rank bound pass chosen candidates = chosen := by
  induction candidates with
  | nil => rfl
  | cons a candidates ih =>
    rw [pickPass, if_neg fun htake => absurd htake.1 (Nat.not_lt.mpr h)]
    exact ih

/-- The run of one pass: `seen` are the candidates before those still to come. -/
theorem pickPass_spec (grows : ∀ chosen a b, rank chosen b ≤ rank (chosen ++ [a]) b) (seen rest : List α)
    (hcandidates : candidates = seen ++ rest) (hgreedy : Greedy key rank candidates chosen)
    (hpassed : PassedBy key rank candidates chosen pass)
    (hseen : chosen.length < bound → PassedBy key rank seen chosen (pass + 1)) (hbound : chosen.length ≤ bound) :
    let result := pickPass key rank bound pass chosen rest
    Greedy key rank candidates result ∧ result.length ≤ bound ∧
      (result.length < bound → PassedBy key rank candidates result (pass + 1)) := by
  induction rest generalizing seen chosen with
  | nil =>
    rw [List.append_nil] at hcandidates
    subst hcandidates
    exact ⟨hgreedy, hbound, hseen⟩
  | cons a rest ih =>
    have hnext : candidates = (seen ++ [a]) ++ rest := by simp [hcandidates]
    rw [pickPass]
    split
    · rename_i htake
      obtain ⟨hroom, hfresh, hrank⟩ := htake
      have hbest : FirstBest key rank candidates chosen a := by
        refine ⟨hfresh, fun b hb hnew => hrank.trans (hpassed b hb hnew), seen, rest, hcandidates, ?_⟩
        exact fun b hb hnew => Nat.lt_of_lt_of_le (Nat.lt_succ_of_le hrank) (hseen hroom b hb hnew)
      apply ih (seen ++ [a]) hnext (hgreedy.concat hbest) (hpassed.concat grows a)
      · intro _ b hb hnew
        rcases List.mem_append.mp hb with hb | hb
        · exact (hseen hroom).concat grows a b hb hnew
        · rw [List.mem_singleton.mp hb] at hnew
          simp at hnew
      · rw [List.length_append, List.length_singleton]
        exact hroom
    · rename_i hskip
      apply ih (seen ++ [a]) hnext hgreedy hpassed _ hbound
      intro hroom b hb hnew
      rcases List.mem_append.mp hb with hb | hb
      · exact hseen hroom b hb hnew
      · rw [List.mem_singleton.mp hb] at hnew ⊢
        exact Nat.lt_of_not_le fun hrank => hskip ⟨hroom, hnew, hrank⟩

/-- After all passes: the choices are those of the greedy rule, and there are as many as
there are to be, or nothing is left of the ranks that the passes let through. -/
theorem pickPasses_spec (grows : ∀ chosen a b, rank chosen b ≤ rank (chosen ++ [a]) b) (candidates : List α)
    (bound passes : Nat) :
    let result := pickPasses key rank bound candidates passes
    Greedy key rank candidates result ∧ result.length ≤ bound ∧
      (result.length < bound → PassedBy key rank candidates result passes) := by
  induction passes with
  | zero => exact ⟨greedy_nil, Nat.zero_le bound, fun _ _ _ _ => Nat.zero_le _⟩
  | succ passes ih =>
    obtain ⟨hgreedy, hbound, hpassed⟩ := ih
    rw [pickPasses]
    generalize pickPasses key rank bound candidates passes = chosen at hgreedy hbound hpassed
    rcases Nat.lt_or_ge chosen.length bound with hroom | hfull
    · exact pickPass_spec grows [] candidates rfl hgreedy (hpassed hroom) (fun _ b hb => by simp at hb) hbound
    · rw [pickPass_of_full hfull]
      exact ⟨hgreedy, hbound, fun hroom => absurd hroom (Nat.not_lt.mpr hfull)⟩

/-- Where the last pass lets everything through, one of each key is chosen, up to the bound. -/
theorem length_pickPasses (grows : ∀ chosen a b, rank chosen b ≤ rank (chosen ++ [a]) b)
    (hrank : ∀ chosen a, rank chosen a < passes) (candidates : List α) (bound : Nat) :
    (pickPasses key rank bound candidates passes).length = min bound (candidates.map key).toFinset.card := by
  have hspec := @pickPasses_spec α κ key rank _ grows candidates bound passes
  generalize pickPasses key rank bound candidates passes = chosen at hspec ⊢
  obtain ⟨hgreedy, hbound, hpassed⟩ := hspec
  have hsubset : (chosen.map key).toFinset ⊆ (candidates.map key).toFinset := by
    intro k hk
    obtain ⟨a, ha, rfl⟩ := List.mem_map.mp (List.mem_toFinset.mp hk)
    exact List.mem_toFinset.mpr (List.mem_map_of_mem (hgreedy.mem ha))
  have hcard : (chosen.map key).toFinset.card = chosen.length := by
    rw [List.toFinset_card_of_nodup hgreedy.nodup, List.length_map]
  have hle := Finset.card_le_card hsubset
  rcases Nat.lt_or_ge chosen.length bound with hroom | hfull
  · have hall : (candidates.map key).toFinset ⊆ (chosen.map key).toFinset := by
      intro k hk
      obtain ⟨b, hb, rfl⟩ := List.mem_map.mp (List.mem_toFinset.mp hk)
      by_contra hnew
      have hlate := hpassed hroom b hb (fun hmem => hnew (List.mem_toFinset.mpr hmem))
      exact absurd (hrank chosen b) (Nat.not_lt.mpr hlate)
    have hge := Finset.card_le_card hall
    omega
  · omega

end Beetle.Lib
