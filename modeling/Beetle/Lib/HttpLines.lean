import Mathlib.Data.List.Infix
import Beetle.Lib.Bytes

/-! The lines of an HTTP head, which end with CR and LF, and the empty one that ends the head. -/
namespace Beetle.Lib.Http

def crlf : Bytes := [cr, lf]

def joinLines (lines : List Bytes) : Bytes := lines.flatMap (· ++ crlf)

/-- Lines, of which the last one and no other is empty. -/
def OnlyLastIsEmpty (message : Bytes) : Prop :=
  ∃ lines : List Bytes, (∀ line ∈ lines, line ≠ [] ∧ ¬ crlf <:+: line) ∧ message = joinLines (lines ++ [[]])

/-! One byte after the other. -/

inductive Place where
  | within
  | afterCr
  | lineStart
  | lineStartCr
  deriving DecidableEq

/-- Not beyond the end of an empty line. -/
@[grind =] def step : Place → UInt8 → Option Place
  | .within, b => some (if b = cr then .afterCr else .within)
  | .afterCr, b => some (if b = cr then .afterCr else if b = lf then .lineStart else .within)
  | .lineStart, b => some (if b = cr then .lineStartCr else .within)
  | .lineStartCr, b => if b = lf then none else some (if b = cr then .afterCr else .within)

@[grind =] def run (place : Place) (text : Bytes) : Option Place := text.foldlM step place

variable {place : Place} {text : Bytes} {b : UInt8} {next : Place} {last : Place}

@[simp] theorem run_nil (place : Place) : run place [] = some place := rfl

@[simp] theorem run_cons (place : Place) (b : UInt8) (text : Bytes) :
    run place (b :: text) = (step place b).bind fun place => run place text := rfl

theorem run_append (place : Place) (a b : Bytes) : run place (a ++ b) = (run place a).bind fun place => run place b :=
  List.foldlM_append

theorem run_append_of_eq {mid : Place} {a : Bytes} (h : run place a = some mid) (b : Bytes) :
    run place (a ++ b) = run mid b := by
  rw [run_append, h]
  rfl

/-- The bytes of the end of a line, as far as they are there. -/
def Place.pending : Place → Bytes
  | .within => []
  | .afterCr => [cr]
  | .lineStart => crlf
  | .lineStartCr => [cr, lf, cr]

theorem not_prefix_cons {a b : UInt8} {pat text : Bytes} (h : a ≠ b) : ¬ a :: pat <+: b :: text := fun hprefix =>
  h (List.cons_prefix_cons.mp hprefix).1

theorem infix_cons_of_not_begins {pat text : Bytes} (h : ¬ pat <+: b :: text) : pat <:+: b :: text ↔ pat <:+: text := by
  rw [List.infix_cons_iff, or_iff_right h]

theorem step_pending (h : step place b = some next) (text : Bytes) :
    crlf ++ crlf <:+: place.pending ++ b :: text ↔ crlf ++ crlf <:+: next.pending ++ text := by
  have hne : cr ≠ lf ∧ lf ≠ cr := by decide
  -- A byte that does not go on with the pattern, behind each part of it.
  have hother {tail : Bytes} (hb : b ≠ cr) : crlf ++ crlf <:+: b :: tail ↔ crlf ++ crlf <:+: tail :=
    infix_cons_of_not_begins (not_prefix_cons (Ne.symm hb))
  have hlf {tail : Bytes} : crlf ++ crlf <:+: lf :: tail ↔ crlf ++ crlf <:+: tail :=
    infix_cons_of_not_begins (not_prefix_cons hne.1)
  have hcr {c : UInt8} {tail : Bytes} (hc : c ≠ lf) : crlf ++ crlf <:+: cr :: c :: tail ↔ crlf ++ crlf <:+: c :: tail :=
    infix_cons_of_not_begins fun hprefix => not_prefix_cons (Ne.symm hc) (List.cons_prefix_cons.mp hprefix).2
  have hline {c : UInt8} {tail : Bytes} (hc : c ≠ cr) :
      crlf ++ crlf <:+: cr :: lf :: c :: tail ↔ crlf ++ crlf <:+: c :: tail := by
    rw [infix_cons_of_not_begins, hlf]
    exact fun hprefix => not_prefix_cons (Ne.symm hc) (List.cons_prefix_cons.mp (List.cons_prefix_cons.mp hprefix).2).2
  have hlineCr {c : UInt8} {tail : Bytes} (hc : c ≠ lf) :
      crlf ++ crlf <:+: cr :: lf :: cr :: c :: tail ↔ crlf ++ crlf <:+: cr :: c :: tail := by
    rw [infix_cons_of_not_begins, hlf]
    exact fun hprefix => not_prefix_cons (Ne.symm hc)
      (List.cons_prefix_cons.mp (List.cons_prefix_cons.mp (List.cons_prefix_cons.mp hprefix).2).2).2
  cases place with
  | within =>
    simp only [step, Option.some.injEq] at h
    subst h
    split
    · rename_i hb
      rw [hb]
      rfl
    · rename_i hb
      exact hother hb
  | afterCr =>
    simp only [step, Option.some.injEq] at h
    subst h
    split
    · rename_i hb
      rw [hb]
      exact hcr hne.1
    · rename_i hb
      split
      · rename_i hb
        rw [hb]
        rfl
      · rename_i hb'
        exact (hcr hb').trans (hother hb)
  | lineStart =>
    simp only [step, Option.some.injEq] at h
    subst h
    split
    · rename_i hb
      rw [hb]
      rfl
    · rename_i hb
      exact (hline hb).trans (hother hb)
  | lineStartCr =>
    rw [step] at h
    split at h
    · cases h
    · rename_i hb
      simp only [Option.some.injEq] at h
      subst h
      split
      · rename_i hb'
        rw [hb']
        exact (hlineCr hne.1).trans (hcr hne.1)
      · rename_i hb'
        exact ((hlineCr hb).trans (hcr hb)).trans (hother hb')

/-- The run ends where the ends of two lines have met. -/
theorem run_eq_none_iff (place : Place) (text : Bytes) :
    run place text = none ↔ crlf ++ crlf <:+: place.pending ++ text := by
  induction text generalizing place with
  | nil =>
    rw [run_nil, List.append_nil]
    cases place <;> decide
  | cons b text ih =>
    rw [run_cons]
    cases hstep : step place b with
    | some next => rw [Option.bind_some, ih next, step_pending hstep]
    | none =>
      have hpending : place = .lineStartCr ∧ b = lf := by
        cases place with
        | lineStartCr =>
          rw [step] at hstep
          split at hstep
          · rename_i hb
            exact ⟨rfl, hb⟩
          · cases hstep
        | within => cases hstep
        | afterCr => cases hstep
        | lineStart => cases hstep
      obtain ⟨rfl, rfl⟩ := hpending
      exact iff_of_true rfl ⟨[], text, rfl⟩

theorem run_within_eq_none_iff : run .within text = none ↔ crlf ++ crlf <:+: text := run_eq_none_iff .within text

/-- A line may begin at the front. -/
theorem run_lineStart_eq_none_iff : run .lineStart text = none ↔ crlf <+: text ∨ crlf ++ crlf <:+: text := by
  have hlf : crlf ++ crlf <:+: lf :: text ↔ crlf ++ crlf <:+: text :=
    infix_cons_of_not_begins (not_prefix_cons (by decide))
  have hprefix : crlf ++ crlf <+: cr :: lf :: text ↔ crlf <+: text := List.prefix_append_right_inj crlf
  rw [run_eq_none_iff]
  change crlf ++ crlf <:+: cr :: lf :: text ↔ _
  rw [List.infix_cons_iff, hprefix, hlf]

/-! Where a run stands tells the last bytes. -/

theorem exists_of_run_concat (h : run place (text ++ [b]) = some last) :
    ∃ mid, run place text = some mid ∧ step mid b = some last := by
  rw [run_append] at h
  obtain ⟨mid, hmid, hlast⟩ := Option.bind_eq_some_iff.mp h
  rw [run_cons] at hlast
  obtain ⟨next, hstep, hnext⟩ := Option.bind_eq_some_iff.mp hlast
  obtain rfl := Option.some.inj hnext
  exact ⟨mid, hmid, hstep⟩

theorem step_eq_lineStart_iff : step place b = some .lineStart ↔ place = .afterCr ∧ b = lf := by
  cases place with
  | within => simp [step]; split <;> simp
  | afterCr =>
    have hne : cr ≠ lf := by decide
    by_cases hcr : b = cr
    · simp [step, hcr, hne]
    · by_cases hlf : b = lf <;> simp [step, hcr, hlf]
      decide
  | lineStart => simp [step]; split <;> simp
  | lineStartCr => simp [step]; intro _; split <;> simp

/-- Behind a CR. -/
def Place.cr : Place → Bool
  | .afterCr => true
  | .lineStartCr => true
  | _ => false

theorem cr_of_step (h : step place b = some next) : next.cr = decide (b = cr) := by
  have hne : lf ≠ Lib.cr := by decide
  cases place with
  | within =>
    obtain rfl := Option.some.inj h
    by_cases hcr : b = Lib.cr <;> simp [hcr, Place.cr]
  | afterCr =>
    obtain rfl := Option.some.inj h
    by_cases hcr : b = Lib.cr
    · simp [hcr, Place.cr]
    · by_cases hlf : b = lf <;> simp [hcr, hlf, Place.cr, hne]
  | lineStart =>
    obtain rfl := Option.some.inj h
    by_cases hcr : b = Lib.cr <;> simp [hcr, Place.cr]
  | lineStartCr =>
    rw [step] at h
    split at h
    · cases h
    · obtain rfl := Option.some.inj h
      by_cases hcr : b = Lib.cr <;> simp [hcr, Place.cr]

theorem crlf_suffix_concat_iff : crlf <:+ text ++ [b] ↔ b = lf ∧ ∃ front, text = front ++ [Lib.cr] := by
  constructor
  · rintro ⟨front, hfront⟩
    change front ++ ([Lib.cr] ++ [lf]) = text ++ [b] at hfront
    rw [← List.append_assoc] at hfront
    obtain ⟨htext, hb⟩ := List.append_inj' hfront rfl
    exact ⟨(List.singleton_inj.mp hb).symm, front, htext.symm⟩
  · rintro ⟨rfl, front, rfl⟩
    exact ⟨front, by rw [List.append_assoc]; rfl⟩

/-- Where a run stands at the start of a line tells that the bytes before it and those of the run end with CR and LF. -/
theorem run_eq_lineStart_iff {before : Bytes} {last : Place} (hstart : place = .lineStart ↔ crlf <:+ before)
    (hcr : place.cr = true ↔ ∃ front, before = front ++ [Lib.cr]) (h : run place text = some last) :
    last = .lineStart ↔ crlf <:+ before ++ text := by
  rcases List.eq_nil_or_concat' text with rfl | ⟨text, b, rfl⟩
  · obtain rfl := Option.some.inj h
    rw [List.append_nil, hstart]
  · obtain ⟨mid, hmid, hstep⟩ := exists_of_run_concat h
    rw [← List.append_assoc, crlf_suffix_concat_iff]
    have hlast : last = .lineStart ↔ mid = .afterCr ∧ b = lf := by
      rw [← step_eq_lineStart_iff, hstep, Option.some_inj]
    have hmidCr : mid.cr = true ↔ ∃ front, before ++ text = front ++ [Lib.cr] := by
      rcases List.eq_nil_or_concat' text with rfl | ⟨more, c, rfl⟩
      · obtain rfl := Option.some.inj hmid
        rw [List.append_nil, hcr]
      · obtain ⟨_, -, hbefore⟩ := exists_of_run_concat hmid
        rw [cr_of_step hbefore, decide_eq_true_iff]
        constructor
        · rintro rfl
          exact ⟨before ++ more, by rw [List.append_assoc]⟩
        · rintro ⟨front, hfront⟩
          rw [← List.append_assoc] at hfront
          exact List.singleton_inj.mp (List.append_inj' hfront rfl).2
    rw [hlast, ← hmidCr, and_comm]
    refine and_congr_right fun hb => ?_
    subst hb
    cases mid with
    | lineStartCr => cases hstep
    | afterCr => exact iff_of_true rfl rfl
    | within => exact iff_of_false nofun nofun
    | lineStart => exact iff_of_false nofun nofun

/-- From the start of a line. -/
theorem run_lineStart_iff (h : run .lineStart text = some last) : last = .lineStart ↔ crlf <:+ crlf ++ text := by
  refine run_eq_lineStart_iff (iff_of_true rfl (List.suffix_refl _)) (iff_of_false nofun ?_) h
  rintro ⟨front, hfront⟩
  have hlast := congrArg List.getLast? hfront
  rw [List.getLast?_concat] at hlast
  cases hlast

/-- From within a line. -/
theorem run_within_iff (h : run .within text = some last) : last = .lineStart ↔ crlf <:+ text := by
  refine @run_eq_lineStart_iff .within text [] last (iff_of_false nofun (by decide)) (iff_of_false nofun ?_) h
  rintro ⟨front, hfront⟩
  exact List.cons_ne_nil _ _ (List.append_eq_nil_iff.mp hfront.symm).2

theorem run_crlf (h : place ≠ .lineStart) : run place crlf = some .lineStart := by
  cases place with
  | lineStart => exact absurd rfl h
  | within => rfl
  | afterCr => rfl
  | lineStartCr => rfl

theorem step_of_ne (hcr : b ≠ Lib.cr) (hlf : b ≠ lf) : step place b = some .within := by
  cases place <;> simp [step, hcr, hlf]

/-- Bytes that are neither CR nor LF. -/
theorem run_of_forall (h : ∀ b ∈ text, b ≠ Lib.cr ∧ b ≠ lf) : run .within text = some .within := by
  induction text with
  | nil => rfl
  | cons b text ih =>
    rw [List.forall_mem_cons] at h
    rw [run_cons, step_of_ne h.1.1 h.1.2]
    exact ih h.2

/-! Lines. -/

/-- What has come of a line that is not ended yet. -/
def Place.Holds : Place → Bytes → Prop
  | .lineStart, part => part = []
  | .lineStartCr, part => part = [Lib.cr]
  | .afterCr, part => ∃ front, front ≠ [] ∧ part = front ++ [Lib.cr]
  | .within, part => ∃ front b, part = front ++ [b] ∧ b ≠ Lib.cr

theorem not_crlf_infix_concat {part : Bytes} (h : ¬ crlf <:+: part) (hb : ¬ crlf <:+ part ++ [b]) :
    ¬ crlf <:+: part ++ [b] := by
  rw [List.infix_concat_iff]
  exact not_or_intro hb h

theorem Place.Holds.step {part : Bytes} (h : place.Holds part) (hstep : step place b = some next)
    (hend : ¬ (place = .afterCr ∧ b = lf)) : next.Holds (part ++ [b]) := by
  have hcons (hne : part ≠ []) (hcr : b = Lib.cr) : Place.afterCr.Holds (part ++ [b]) := ⟨part, hne, by rw [hcr]⟩
  have hother (hcr : b ≠ Lib.cr) : Place.within.Holds (part ++ [b]) := ⟨part, b, rfl, hcr⟩
  cases place with
  | within =>
    obtain rfl := Option.some.inj hstep
    obtain ⟨front, c, rfl, -⟩ := h
    split
    · rename_i hcr
      exact hcons (by simp) hcr
    · rename_i hcr
      exact hother hcr
  | afterCr =>
    obtain rfl := Option.some.inj hstep
    obtain ⟨front, -, rfl⟩ := h
    split
    · rename_i hcr
      exact hcons (by simp) hcr
    · rename_i hcr
      rw [if_neg fun hlf => hend ⟨rfl, hlf⟩]
      exact hother hcr
  | lineStart =>
    obtain rfl := Option.some.inj hstep
    obtain rfl := h
    split
    · rename_i hcr
      rw [hcr]
      rfl
    · rename_i hcr
      exact hother hcr
  | lineStartCr =>
    rw [Http.step] at hstep
    split at hstep
    · cases hstep
    · obtain rfl := Option.some.inj hstep
      obtain rfl := h
      split
      · rename_i hcr
        exact hcons (by simp) hcr
      · rename_i hcr
        exact hother hcr

theorem joinLines_concat (lines : List Bytes) (line : Bytes) : joinLines (lines ++ [line]) = joinLines lines ++ (line ++ crlf) := by
  rw [joinLines, List.flatMap_append, List.flatMap_singleton, joinLines]

/-- A run that has not met an empty line has met lines that are not empty. -/
theorem exists_lines_of_run (h : run .lineStart text = some place) : ∃ lines part,
    (∀ line ∈ lines, line ≠ [] ∧ ¬ crlf <:+: line) ∧ text = joinLines lines ++ part ∧ ¬ crlf <:+: part ∧ place.Holds part := by
  induction text using List.reverseRecOn generalizing place with
  | nil =>
    obtain rfl := Option.some.inj h
    exact ⟨[], [], List.forall_mem_nil _, rfl, by decide, rfl⟩
  | append_singleton text b ih =>
    obtain ⟨mid, hmid, hstep⟩ := exists_of_run_concat h
    obtain ⟨lines, part, hlines, rfl, hpart, hholds⟩ := ih hmid
    by_cases hend : mid = .afterCr ∧ b = lf
    · obtain ⟨rfl, rfl⟩ := hend
      obtain rfl := Option.some.inj hstep
      obtain ⟨front, hfront, rfl⟩ := hholds
      have hline : front ≠ [] ∧ ¬ crlf <:+: front := ⟨hfront, fun hinside => hpart (hinside.trans List.infix_append_left)⟩
      refine ⟨lines ++ [front], [], ?_, ?_, by decide, rfl⟩
      · intro line hline'
        rcases List.mem_append.mp hline' with hmem | hmem
        · exact hlines line hmem
        · rw [List.mem_singleton.mp hmem]
          exact hline
      · rw [joinLines_concat, List.append_nil, List.append_assoc, List.append_assoc]
        rfl
    · refine ⟨lines, part ++ [b], hlines, List.append_assoc _ _ _, not_crlf_infix_concat hpart fun hsuffix => ?_, hholds.step hstep hend⟩
      obtain ⟨rfl, front, rfl⟩ := crlf_suffix_concat_iff.mp hsuffix
      cases mid with
      | afterCr => exact hend ⟨rfl, rfl⟩
      | lineStartCr => cases hstep
      | lineStart => exact absurd hholds (by simp [Place.Holds])
      | within =>
        obtain ⟨_, c, heq, hc⟩ := hholds
        exact hc (List.singleton_inj.mp (List.append_inj' heq rfl).2).symm

/-- A line that is not empty is passed over. -/
theorem run_line {line : Bytes} (hne : line ≠ []) (hline : ¬ crlf <:+: line) : run .lineStart (line ++ crlf) = some .lineStart := by
  cases hrun : run .lineStart line with
  | none =>
    rcases run_lineStart_eq_none_iff.mp hrun with hprefix | hinside
    · exact absurd hprefix.isInfix hline
    · exact absurd (List.infix_append_left.trans hinside) hline
  | some place =>
    rw [run_append_of_eq hrun, run_crlf]
    rintro rfl
    have hsuffix := (run_lineStart_iff hrun).mp rfl
    rcases List.eq_nil_or_concat' line with rfl | ⟨front, b, rfl⟩
    · exact hne rfl
    · rw [← List.append_assoc] at hsuffix
      obtain ⟨rfl, more, hmore⟩ := crlf_suffix_concat_iff.mp hsuffix
      rcases List.eq_nil_or_concat' front with rfl | ⟨front, c, rfl⟩
      · have hlast := congrArg List.getLast? hmore
        rw [List.append_nil, List.getLast?_concat] at hlast
        cases hlast
      · rw [← List.append_assoc] at hmore
        obtain ⟨-, hc⟩ := List.append_inj' hmore rfl
        rw [List.singleton_inj.mp hc] at hline
        exact hline ⟨front, [], by rw [List.append_nil, List.append_assoc]; rfl⟩

/-- The lines before the empty one end where a line starts. -/
theorem onlyLastIsEmpty_iff {message : Bytes} :
    OnlyLastIsEmpty message ↔ ∃ front, message = front ++ crlf ∧ run .lineStart front = some .lineStart := by
  constructor
  · rintro ⟨lines, hlines, rfl⟩
    refine ⟨joinLines lines, by rw [joinLines_concat]; rfl, ?_⟩
    induction lines with
    | nil => rfl
    | cons line lines ih =>
      rw [List.forall_mem_cons] at hlines
      rw [joinLines, List.flatMap_cons, run_append_of_eq (run_line hlines.1.1 hlines.1.2)]
      exact ih hlines.2
  · rintro ⟨front, rfl, hrun⟩
    obtain ⟨lines, part, hlines, rfl, -, hholds⟩ := exists_lines_of_run hrun
    obtain rfl := hholds
    exact ⟨lines, hlines, by rw [joinLines_concat, List.append_nil]; rfl⟩

end Beetle.Lib.Http
