import Beetle.Lib.Trim
import Beetle.Tools.Cron

/-! What a field of a cron expression denotes, and when it is read as that. -/
namespace Beetle.Tools
open Beetle.Lib

section
variable {minVal maxVal : Nat} {text : List Char} {part : List Char} {before after : List (List Char)} {s : List Char}

/-- The numbers that a range is written with: all values, a single one, or two bounds. -/
inductive RangeSpans (minVal maxVal : Nat) : List Char → Nat → Nat → Prop
  | star : RangeSpans minVal maxVal ['*'] minVal maxVal
  | number {text : List Char} {n : Nat} (h : parseU32 text = some n) : RangeSpans minVal maxVal text n n
  | bounds {a b : List Char} {lo hi : Nat} (ha : '-' ∉ a) (hlo : parseU32 (trim a) = some lo)
      (hhi : parseU32 (trim b) = some hi) : RangeSpans minVal maxVal (a ++ '-' :: b) lo hi

/-- A part between commas: a range, and every how many of its values. -/
inductive PartReads (minVal maxVal : Nat) (part : List Char) (lo hi : Nat) : Nat → Prop
  | whole (hpart : '/' ∉ trim part) (h : RangeSpans minVal maxVal (trim part) lo hi) : PartReads minVal maxVal part lo hi 1
  | stepped {range st : List Char} {step : Nat} (hpart : trim part = range ++ '/' :: st) (hrange : '/' ∉ range)
      (hstep : parseU32 (trim st) = some step) (h : RangeSpans minVal maxVal (trim range) lo hi) :
      PartReads minVal maxVal part lo hi step

/-- The values that a part denotes; none where its step is zero. -/
def PartDenotes (minVal maxVal : Nat) (part : List Char) (v : Nat) : Prop :=
  ∃ lo hi step, PartReads minVal maxVal part lo hi step ∧ 0 < step ∧ lo ≤ v ∧ v ≤ hi ∧ step ∣ v - lo

def InBounds (minVal maxVal lo hi : Nat) : Prop := minVal ≤ lo ∧ lo ≤ hi ∧ hi ≤ maxVal

@[grind =] def fieldParts (s : List Char) : List (List Char) := (trim s).splitOn ','

/-- What is asked of the result of reading a field. -/
structure MeetsField (s : List Char) (minVal maxVal : Nat) (result : Except Fault (List Nat)) : Prop where
  noPanic : result ≠ .error .panic
  nonempty : result ≠ .ok []
  increasing : ∀ values, result = .ok values → values.Pairwise (· < ·)
  within : ∀ values, result = .ok values → ∀ v ∈ values, minVal ≤ v ∧ v ≤ maxVal
  values : ∀ values, result = .ok values → ∀ v, v ∈ values ↔ ∃ part ∈ fieldParts s, PartDenotes minVal maxVal part v
  rejects : ∀ part ∈ fieldParts s, (∀ v, PartDenotes minVal maxVal part v → ¬ (minVal ≤ v ∧ v ≤ maxVal)) →
    ∃ e, result = .error (.error e)

/-- A part with a range inside the bounds and a positive step. -/
def Accepts (minVal maxVal : Nat) (part : List Char) : Prop :=
  ∃ lo hi step, PartReads minVal maxVal part lo hi step ∧ InBounds minVal maxVal lo hi ∧ 0 < step

/-- A part with a range inside the bounds and the step zero. -/
def ZeroStep (minVal maxVal : Nat) (part : List Char) : Prop :=
  ∃ lo hi, PartReads minVal maxVal part lo hi 0 ∧ InBounds minVal maxVal lo hi

/-- A step of zero comes before anything else that is wrong. -/
def ReachesZeroStep (minVal maxVal : Nat) (parts : List (List Char)) : Prop :=
  ∃ before part after, parts = before ++ part :: after ∧ (∀ p ∈ before, Accepts minVal maxVal p) ∧
    ZeroStep minVal maxVal part

/-! Ranges. -/

theorem parseU32_eq_none {c : Char} {cs : List Char} (hc : c ∈ cs) (hdigit : c.isDigit = false) (hplus : c ≠ '+') :
    parseU32 cs = none := by
  cases h : parseU32 cs with
  | none => rfl
  | some n =>
    rcases digits_of_parseUnsigned h c hc with heq | hd
    · exact absurd heq hplus
    · rw [hdigit] at hd
      cases hd

theorem notMem_of_parseU32 {cs : List Char} {n : Nat} {c : Char} (h : parseU32 cs = some n)
    (hdigit : c.isDigit = false) (hplus : c ≠ '+') : c ∉ cs := by
  intro hc
  rw [parseU32_eq_none hc hdigit hplus] at h
  cases h

theorem eq_of_split {sep : Char} {a b a' b' : List Char} (ha : sep ∉ a) (ha' : sep ∉ a')
    (h : a ++ sep :: b = a' ++ sep :: b') : a = a' ∧ b = b' := by
  have hsplit := splitOnce_append ha b
  rw [h, splitOnce_append ha' b'] at hsplit
  exact Prod.mk.inj (Option.some.inj hsplit.symm)

theorem rangeSpans_unique {lo hi lo' hi' : Nat} (h : RangeSpans minVal maxVal text lo hi)
    (h' : RangeSpans minVal maxVal text lo' hi') : lo = lo' ∧ hi = hi' := by
  cases h with
  | star =>
    generalize htext : ['*'] = text at h'
    cases h' with
    | star => exact ⟨rfl, rfl⟩
    | number hn => exact absurd (htext ▸ List.mem_singleton_self '*') (notMem_of_parseU32 hn rfl (by decide))
    | @bounds a b _ _ ha _ _ =>
      have hmem : '-' ∈ ['*'] := by simp [htext]
      exact absurd hmem (by decide)
  | number hn =>
    cases h' with
    | star => exact absurd (List.mem_singleton_self '*') (notMem_of_parseU32 hn rfl (by decide))
    | number hn' =>
      obtain rfl := Option.some.inj (hn.symm.trans hn')
      exact ⟨rfl, rfl⟩
    | bounds ha hlo hhi => exact absurd (by simp) (notMem_of_parseU32 (c := '-') hn rfl (by decide))
  | bounds ha hlo hhi =>
    rename_i a b
    generalize htext : a ++ '-' :: b = text at h'
    cases h' with
    | star =>
      have hmem : '-' ∈ ['*'] := by simp [← htext]
      exact absurd hmem (by decide)
    | number hn => exact absurd (by simp [← htext]) (notMem_of_parseU32 (c := '-') hn rfl (by decide))
    | bounds ha' hlo' hhi' =>
      obtain ⟨rfl, rfl⟩ := eq_of_split ha ha' htext
      exact ⟨Option.some.inj (hlo.symm.trans hlo'), Option.some.inj (hhi.symm.trans hhi')⟩

theorem parseCronRange_of_spans {lo hi : Nat} (hstar : text ≠ ['*'])
    (h : RangeSpans minVal maxVal text lo hi) (hbounds : InBounds minVal maxVal lo hi) :
    parseCronRange text minVal maxVal = .ok (lo, hi) := by
  obtain ⟨hmin, hle, hmax⟩ := hbounds
  cases h with
  | star => exact absurd rfl hstar
  | number hn =>
    have hsplit := splitOnce_eq_none_iff.mpr (notMem_of_parseU32 (c := '-') hn rfl (by decide))
    simp only [parseCronRange, hsplit, hn]
    rw [if_neg (by omega)]
  | bounds ha hlo hhi =>
    simp only [parseCronRange, splitOnce_append ha, hlo, hhi]
    rw [if_neg (by omega)]

theorem parseCronRange_of_not (h : ∀ lo hi, RangeSpans minVal maxVal text lo hi → ¬ InBounds minVal maxVal lo hi) :
    ∃ e, parseCronRange text minVal maxVal = .error (.error e) := by
  unfold parseCronRange
  cases hsplit : splitOnce '-' text with
  | none =>
    cases hn : parseU32 text with
    | none => exact ⟨_, rfl⟩
    | some n =>
      have hout := h n n (.number hn)
      simp only [InBounds] at hout
      dsimp only
      rw [if_pos (by omega)]
      exact ⟨_, rfl⟩
  | some ab =>
    obtain ⟨a, b⟩ := ab
    obtain ⟨rfl, ha⟩ := splitOnce_eq_some_iff.mp hsplit
    dsimp only
    cases hlo : parseU32 (trim a) with
    | none => exact ⟨_, rfl⟩
    | some lo =>
      cases hhi : parseU32 (trim b) with
      | none => exact ⟨_, rfl⟩
      | some hi =>
        have hout := h lo hi (.bounds ha hlo hhi)
        simp only [InBounds] at hout
        dsimp only
        rw [if_pos (by omega)]
        exact ⟨_, rfl⟩

/-! Parts. -/

theorem partReads_unique {lo hi step lo' hi' step' : Nat}
    (h : PartReads minVal maxVal part lo hi step) (h' : PartReads minVal maxVal part lo' hi' step') :
    lo = lo' ∧ hi = hi' ∧ step = step' := by
  cases h with
  | whole hpart h =>
    cases h' with
    | whole hpart' h' =>
      obtain ⟨rfl, rfl⟩ := rangeSpans_unique h h'
      exact ⟨rfl, rfl, rfl⟩
    | stepped hpart' => exact absurd (by simp [hpart']) hpart
  | stepped hpart hrange hstep h =>
    cases h' with
    | whole hpart' => exact absurd (by simp [hpart]) hpart'
    | stepped hpart' hrange' hstep' h' =>
      obtain ⟨rfl, rfl⟩ := eq_of_split hrange hrange' (hpart.symm.trans hpart')
      obtain ⟨rfl, rfl⟩ := rangeSpans_unique h h'
      exact ⟨rfl, rfl, Option.some.inj (hstep.symm.trans hstep')⟩

/-- A part from its range and its step on. -/
def stepped (minVal maxVal : Nat) (range : List Char) (step : Nat) : Except Fault (List Nat) :=
  if range = ['*'] then stepRange minVal maxVal step
  else do
    let (lo, hi) ← parseCronRange range minVal maxVal
    stepRange lo hi step

theorem stepped_of_spans {range : List Char} {lo hi : Nat} (h : RangeSpans minVal maxVal range lo hi)
    (hbounds : InBounds minVal maxVal lo hi) (step : Nat) : stepped minVal maxVal range step = stepRange lo hi step := by
  by_cases hstar : range = ['*']
  · subst hstar
    obtain ⟨rfl, rfl⟩ := rangeSpans_unique h .star
    rw [stepped, if_pos rfl]
  · rw [stepped, if_neg hstar, parseCronRange_of_spans hstar h hbounds]
    rfl

theorem stepped_of_not (hle : minVal ≤ maxVal) {range : List Char}
    (h : ∀ lo hi, RangeSpans minVal maxVal range lo hi → ¬ InBounds minVal maxVal lo hi) (step : Nat) :
    ∃ e, stepped minVal maxVal range step = .error (.error e) := by
  by_cases hstar : range = ['*']
  · subst hstar
    exact absurd ⟨Nat.le_refl _, hle, Nat.le_refl _⟩ (h minVal maxVal .star)
  · obtain ⟨e, he⟩ := parseCronRange_of_not h
    rw [stepped, if_neg hstar, he]
    exact ⟨e, rfl⟩

theorem parseCronPart_of_reads {lo hi step : Nat} (h : PartReads minVal maxVal part lo hi step)
    (hbounds : InBounds minVal maxVal lo hi) : parseCronPart part minVal maxVal = stepRange lo hi step := by
  cases h with
  | whole hpart h =>
    simp only [parseCronPart, splitOnce_eq_none_iff.mpr hpart]
    exact stepped_of_spans h hbounds 1
  | stepped hpart hrange hstep h =>
    simp only [parseCronPart, splitOnce_eq_some_iff.mpr ⟨hpart, hrange⟩, hstep]
    exact stepped_of_spans h hbounds step

theorem parseCronPart_of_not (hle : minVal ≤ maxVal)
    (h : ∀ lo hi step, PartReads minVal maxVal part lo hi step → ¬ InBounds minVal maxVal lo hi) :
    ∃ e, parseCronPart part minVal maxVal = .error (.error e) := by
  cases hsplit : splitOnce '/' (trim part) with
  | none =>
    have hpart := splitOnce_eq_none_iff.mp hsplit
    simp only [parseCronPart, hsplit]
    exact stepped_of_not hle (fun lo hi hspans => h lo hi 1 (.whole hpart hspans)) 1
  | some parts =>
    obtain ⟨range, st⟩ := parts
    obtain ⟨hpart, hrange⟩ := splitOnce_eq_some_iff.mp hsplit
    cases hstep : parseU32 (trim st) with
    | none =>
      simp only [parseCronPart, hsplit, hstep]
      exact ⟨_, rfl⟩
    | some step =>
      simp only [parseCronPart, hsplit, hstep]
      exact stepped_of_not hle (fun lo hi hspans => h lo hi step (.stepped hpart hrange hstep hspans)) step

theorem stepRange_zero (lo hi : Nat) : stepRange lo hi 0 = .error .panic := rfl

theorem stepRange_pos (lo hi : Nat) {step : Nat} (h : 0 < step) :
    ∃ values, stepRange lo hi step = .ok values ∧ ∀ v, v ∈ values ↔ lo ≤ v ∧ v ≤ hi ∧ step ∣ v - lo := by
  refine ⟨_, by rw [stepRange, if_neg (Nat.pos_iff_ne_zero.mp h)], fun v => ?_⟩
  rw [List.mem_filter, List.mem_range'_1, decide_eq_true_iff, Nat.dvd_iff_mod_eq_zero]
  constructor
  · rintro ⟨⟨hlo, hhi⟩, hmod⟩
    exact ⟨hlo, by omega, hmod⟩
  · rintro ⟨hlo, hhi, hmod⟩
    exact ⟨⟨hlo, by omega⟩, hmod⟩

/-- What is read of a part is what it denotes. -/
theorem parseCronPart_of_accepts (h : Accepts minVal maxVal part) :
    ∃ values, parseCronPart part minVal maxVal = .ok values ∧ values ≠ [] ∧
      (∀ v ∈ values, minVal ≤ v ∧ v ≤ maxVal) ∧ ∀ v, v ∈ values ↔ PartDenotes minVal maxVal part v := by
  obtain ⟨lo, hi, step, hreads, hbounds, hpos⟩ := h
  obtain ⟨values, hvalues, hmem⟩ := stepRange_pos lo hi hpos
  obtain ⟨hmin, hle, hmax⟩ := hbounds
  refine ⟨values, (parseCronPart_of_reads hreads ⟨hmin, hle, hmax⟩).trans hvalues, ?_, ?_, fun v => ?_⟩
  · exact List.ne_nil_of_mem ((hmem lo).mpr ⟨Nat.le_refl lo, hle, by simp⟩)
  · intro v hv
    obtain ⟨hlo, hhi, -⟩ := (hmem v).mp hv
    omega
  · rw [hmem]
    constructor
    · intro hv
      exact ⟨lo, hi, step, hreads, hpos, hv⟩
    · rintro ⟨lo', hi', step', hreads', -, hv⟩
      obtain ⟨rfl, rfl, rfl⟩ := partReads_unique hreads hreads'
      exact hv

theorem parseCronPart_of_zeroStep (h : ZeroStep minVal maxVal part) :
    parseCronPart part minVal maxVal = .error .panic := by
  obtain ⟨lo, hi, hreads, hbounds⟩ := h
  rw [parseCronPart_of_reads hreads hbounds, stepRange_zero]

theorem parseCronPart_of_neither (hle : minVal ≤ maxVal) (haccepts : ¬ Accepts minVal maxVal part)
    (hzero : ¬ ZeroStep minVal maxVal part) : ∃ e, parseCronPart part minVal maxVal = .error (.error e) := by
  apply parseCronPart_of_not hle
  intro lo hi step hreads hbounds
  rcases Nat.eq_zero_or_pos step with rfl | hpos
  · exact hzero ⟨lo, hi, hreads, hbounds⟩
  · exact haccepts ⟨lo, hi, step, hreads, hbounds, hpos⟩

/-! Fields. -/

theorem mapM_of_accepts {parts : List (List Char)} (h : ∀ part ∈ parts, Accepts minVal maxVal part) :
    ∃ outs, (parts.mapM fun part => parseCronPart part minVal maxVal) = .ok outs ∧
      (parts ≠ [] → outs.flatten ≠ []) ∧ (∀ v ∈ outs.flatten, minVal ≤ v ∧ v ≤ maxVal) ∧
      ∀ v, v ∈ outs.flatten ↔ ∃ part ∈ parts, PartDenotes minVal maxVal part v := by
  induction parts with
  | nil => exact ⟨[], rfl, fun h => absurd rfl h, by simp, by simp⟩
  | cons part parts ih =>
    obtain ⟨values, hvalues, hne, hwithin, hmem⟩ := parseCronPart_of_accepts (h part List.mem_cons_self)
    obtain ⟨outs, houts, -, houtsWithin, houtsMem⟩ := ih fun p hp => h p (List.mem_cons_of_mem part hp)
    refine ⟨values :: outs, ?_, ?_, ?_, fun v => ?_⟩
    · rw [List.mapM_cons, hvalues, houts]
      rfl
    · simp [hne]
    · intro v hv
      rcases List.mem_append.mp hv with hv | hv
      · exact hwithin v hv
      · exact houtsWithin v hv
    · rw [List.flatten_cons, List.mem_append, hmem, houtsMem]
      simp

theorem mapM_of_fault {fault : Fault}
    (hbefore : ∀ p ∈ before, Accepts minVal maxVal p) (hpart : parseCronPart part minVal maxVal = .error fault) :
    ((before ++ part :: after).mapM fun part => parseCronPart part minVal maxVal) = .error fault := by
  induction before with
  | nil =>
    rw [List.nil_append, List.mapM_cons, hpart]
    rfl
  | cons p before ih =>
    obtain ⟨values, hvalues, -⟩ := parseCronPart_of_accepts (hbefore p List.mem_cons_self)
    rw [List.cons_append, List.mapM_cons, hvalues, ih fun q hq => hbefore q (List.mem_cons_of_mem p hq)]
    rfl

/-- Either all parts are accepted, or there is a first one that is not. -/
theorem accepts_or_first (parts : List (List Char)) : (∀ part ∈ parts, Accepts minVal maxVal part) ∨
    ∃ before part after, parts = before ++ part :: after ∧ (∀ p ∈ before, Accepts minVal maxVal p) ∧
      ¬ Accepts minVal maxVal part := by
  induction parts with
  | nil => exact .inl (by simp)
  | cons part parts ih =>
    by_cases hpart : Accepts minVal maxVal part
    · rcases ih with hall | ⟨before, bad, after, rfl, hbefore, hbad⟩
      · exact .inl (List.forall_mem_cons.mpr ⟨hpart, hall⟩)
      · exact .inr ⟨part :: before, bad, after, rfl, List.forall_mem_cons.mpr ⟨hpart, hbefore⟩, hbad⟩
    · exact .inr ⟨[], part, parts, rfl, by simp, hpart⟩

theorem fieldParts_ne_nil (s : List Char) : fieldParts s ≠ [] := List.splitOn_ne_nil _ _

theorem fieldParts_star (h : trim s = ['*']) : fieldParts s = [['*']] := by
  rw [fieldParts, h]
  rfl

theorem fieldParts_nil (h : trim s = []) : fieldParts s = [[]] := by
  rw [fieldParts, h]
  rfl

theorem not_partReads_nil {lo hi step : Nat} : ¬ PartReads minVal maxVal [] lo hi step := by
  intro hreads
  generalize hpart : ([] : List Char) = part at hreads
  cases hreads with
  | whole _ h =>
    subst hpart
    generalize htext : trim [] = text at h
    cases h with
    | star => cases htext
    | number hn =>
      subst htext
      cases hn
    | bounds => exact absurd htext (by simp [trim])
  | stepped h =>
    subst hpart
    exact absurd h (by simp [trim])

theorem partReads_star : PartReads minVal maxVal ['*'] minVal maxVal 1 := .whole (by decide) .star

/-- The values, put in order and without what is there twice. -/
theorem pairwise_dedup (values : List Nat) : ((values.insertionSort (· ≤ ·)).dedup).Pairwise (· < ·) := by
  have hle : ((values.insertionSort (· ≤ ·)).dedup).Pairwise (· ≤ ·) :=
    (List.pairwise_insertionSort (· ≤ ·) values).sublist (List.dedup_sublist _)
  exact (hle.and (List.nodup_dedup _)).imp fun hand => lt_of_le_of_ne hand.1 hand.2

theorem parseCronField_of_accepts (hle : minVal ≤ maxVal) (h : ∀ part ∈ fieldParts s, Accepts minVal maxVal part) :
    ∃ values, parseCronField s minVal maxVal = .ok values ∧ values ≠ [] ∧ values.Pairwise (· < ·) ∧
      (∀ v ∈ values, minVal ≤ v ∧ v ≤ maxVal) ∧
      ∀ v, v ∈ values ↔ ∃ part ∈ fieldParts s, PartDenotes minVal maxVal part v := by
  by_cases hempty : trim s = []
  · have hparts : [] ∈ fieldParts s := by simp [fieldParts, hempty]
    obtain ⟨_, _, _, hreads, -⟩ := h [] hparts
    exact absurd hreads not_partReads_nil
  by_cases hstar : trim s = ['*']
  · have hread : parseCronField s minVal maxVal = .ok (List.range' minVal (maxVal + 1 - minVal)) := by
      simp only [parseCronField, hstar, if_true, List.cons_ne_nil, if_false]
    refine ⟨_, hread, ?_, List.pairwise_lt_range', ?_, fun v => ?_⟩
    · rw [Ne, List.range'_eq_nil_iff]
      omega
    · intro v hv
      rw [List.mem_range'_1] at hv
      omega
    · rw [List.mem_range'_1, fieldParts_star hstar]
      constructor
      · intro hv
        exact ⟨['*'], List.mem_singleton_self _, minVal, maxVal, 1, partReads_star, Nat.one_pos, hv.1, by omega, by simp⟩
      · rintro ⟨part, hpart, lo, hi, step, hreads, -, hlo, hhi, -⟩
        rw [List.mem_singleton.mp hpart] at hreads
        obtain ⟨rfl, rfl, -⟩ := partReads_unique hreads partReads_star
        omega
  obtain ⟨outs, houts, hne, hwithin, hmem⟩ := mapM_of_accepts h
  have hdedup : (outs.flatten.insertionSort (· ≤ ·)).dedup ≠ [] := by
    rw [Ne, List.dedup_eq_nil, ← List.length_eq_zero_iff, List.length_insertionSort, List.length_eq_zero_iff]
    exact hne (fieldParts_ne_nil s)
  have hread : parseCronField s minVal maxVal = .ok (outs.flatten.insertionSort (· ≤ ·)).dedup := by
    unfold fieldParts at houts
    simp only [parseCronField, if_neg hempty, if_neg hstar, houts]
    exact if_neg hdedup
  refine ⟨_, hread, hdedup, pairwise_dedup _, ?_, fun v => ?_⟩
  · intro v hv
    rw [List.mem_dedup, List.mem_insertionSort] at hv
    exact hwithin v hv
  · rw [List.mem_dedup, List.mem_insertionSort, hmem]

theorem parseCronField_of_fault {fault : Fault}
    (hparts : fieldParts s = before ++ part :: after) (hbefore : ∀ p ∈ before, Accepts minVal maxVal p)
    (hpart : parseCronPart part minVal maxVal = .error fault) (hne : trim s ≠ []) (hstar : trim s ≠ ['*']) :
    parseCronField s minVal maxVal = .error fault := by
  have hfault : ((before ++ part :: after).mapM fun part => parseCronPart part minVal maxVal) = .error fault :=
    mapM_of_fault hbefore hpart
  rw [← hparts, fieldParts] at hfault
  simp only [parseCronField, if_neg hne, if_neg hstar, hfault]
  rfl

theorem mem_of_split {part only : List Char} (h : [only] = before ++ part :: after) : part = only := by
  have hmem : part ∈ [only] := by simp [h]
  exact List.mem_singleton.mp hmem

theorem parseCronField_of_zeroStep (h : ReachesZeroStep minVal maxVal (fieldParts s)) :
    parseCronField s minVal maxVal = .error .panic := by
  obtain ⟨before, part, after, hparts, hbefore, hzero⟩ := h
  apply parseCronField_of_fault hparts hbefore (parseCronPart_of_zeroStep hzero)
  · intro hempty
    obtain rfl := mem_of_split ((fieldParts_nil hempty).symm.trans hparts)
    obtain ⟨_, _, hreads, -⟩ := hzero
    exact not_partReads_nil hreads
  · intro hstar
    obtain rfl := mem_of_split ((fieldParts_star hstar).symm.trans hparts)
    obtain ⟨_, _, hreads, -⟩ := hzero
    obtain ⟨-, -, hstep⟩ := partReads_unique hreads partReads_star
    cases hstep

theorem parseCronField_of_neither (hle : minVal ≤ maxVal)
    (hparts : fieldParts s = before ++ part :: after) (hbefore : ∀ p ∈ before, Accepts minVal maxVal p)
    (haccepts : ¬ Accepts minVal maxVal part) (hzero : ¬ ZeroStep minVal maxVal part) :
    ∃ e, parseCronField s minVal maxVal = .error (.error e) := by
  by_cases hempty : trim s = []
  · exact ⟨_, by simp only [parseCronField, if_pos hempty]; rfl⟩
  · obtain ⟨e, he⟩ := parseCronPart_of_neither hle haccepts hzero
    refine ⟨e, parseCronField_of_fault hparts hbefore he hempty fun hstar => haccepts ?_⟩
    obtain rfl := mem_of_split ((fieldParts_star hstar).symm.trans hparts)
    exact ⟨minVal, maxVal, 1, partReads_star, ⟨Nat.le_refl _, hle, Nat.le_refl _⟩, Nat.one_pos⟩

/-- A part that is accepted denotes its first value, which is in bounds. -/
theorem denotes_of_accepts (h : Accepts minVal maxVal part) :
    ∃ v, PartDenotes minVal maxVal part v ∧ minVal ≤ v ∧ v ≤ maxVal := by
  obtain ⟨lo, hi, step, hreads, ⟨hmin, hle, hmax⟩, hpos⟩ := h
  exact ⟨lo, ⟨lo, hi, step, hreads, hpos, Nat.le_refl lo, hle, by simp⟩, hmin, hle.trans hmax⟩

/-- A field is read as what it denotes, without a panic, exactly when no step of zero is come to. -/
theorem parseCronField_meets_iff (s : List Char) (hle : minVal ≤ maxVal) :
    MeetsField s minVal maxVal (parseCronField s minVal maxVal) ↔ ¬ ReachesZeroStep minVal maxVal (fieldParts s) := by
  constructor
  · intro hmeets hzero
    exact hmeets.noPanic (parseCronField_of_zeroStep hzero)
  intro hzero
  rcases @accepts_or_first minVal maxVal (fieldParts s) with hall | ⟨before, part, after, hparts, hbefore, hpart⟩
  · obtain ⟨values, hvalues, hne, hincreasing, hwithin, hmem⟩ := parseCronField_of_accepts hle hall
    rw [hvalues]
    constructor
    · nofun
    · intro h
      exact hne (Except.ok.inj h)
    · rintro _ ⟨⟩
      exact hincreasing
    · rintro _ ⟨⟩
      exact hwithin
    · rintro _ ⟨⟩
      exact hmem
    · intro part hpart hnone
      obtain ⟨v, hdenotes, hv⟩ := denotes_of_accepts (hall part hpart)
      exact absurd hv (hnone v hdenotes)
  · obtain ⟨e, he⟩ := parseCronField_of_neither hle hparts hbefore hpart
      fun h => hzero ⟨before, part, after, hparts, hbefore, h⟩
    rw [he]
    constructor
    · nofun
    · nofun
    · nofun
    · nofun
    · nofun
    · exact fun _ _ _ => ⟨e, rfl⟩

end

theorem parseCronField_meets_minutes :
    (0 ≤ 59) ∧ (MeetsField "1,10-20/5".toList 0 59 (parseCronField "1,10-20/5".toList 0 59) ↔
      ¬ ReachesZeroStep 0 59 (fieldParts "1,10-20/5".toList)) :=
  ⟨by decide, parseCronField_meets_iff _ (by decide)⟩

/-- A step of zero takes the thread down. -/
theorem parseCronField_zero_panics : ¬ MeetsField "*/0".toList 0 59 (parseCronField "*/0".toList 0 59) := by
  intro h
  exact h.noPanic rfl

end Beetle.Tools
