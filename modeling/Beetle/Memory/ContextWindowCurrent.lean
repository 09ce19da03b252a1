import Beetle.Memory.ContextWindow

/-! When the current message is in the window that is sent to the model. -/
namespace Beetle.Memory
open Beetle.Lib

/-- The last message is one of the user that ends with the text. -/
def EndsWithUser (content : String) (messages : List Message) : Prop :=
  ∃ last, messages.getLast? = some last ∧ last.role = "user" ∧ content.toList <:+ last.content.toList

/-- The messages that the first loop passes over. -/
@[grind =] def exempt (protectedIdx summaryIdx : Option Nat) (p : Message × Nat) : Bool :=
  some p.2 = protectedIdx ∨ some p.2 = summaryIdx

@[grind =] def exemptMessages (protectedIdx summaryIdx : Option Nat) (messages : List Message) : List Message :=
  (messages.zipIdx.filter (exempt protectedIdx summaryIdx)).map Prod.fst

@[simp] theorem totalSize_nil : totalSize [] = 0 := rfl

@[simp] theorem totalSize_cons (message : Message) (messages : List Message) :
    totalSize (message :: messages) = message.size + totalSize messages := by
  simp [totalSize]

@[simp] theorem totalSize_append (messages others : List Message) :
    totalSize (messages ++ others) = totalSize messages + totalSize others := by
  simp [totalSize]

/-! The first loop. -/

section
variable {maxLen len : Nat} {protectedIdx summaryIdx : Option Nat}

/-- The pairs that the first loop removes when the total never gets small enough. -/
def removable (protectedIdx summaryIdx : Option Nat) (ws : List (Message × Nat)) : List (Message × Nat) :=
  ws.filter fun p => !exempt protectedIdx summaryIdx p

theorem removable_cons_exempt {message : Message} {index : Nat} (ws : List (Message × Nat))
    (h : some index = protectedIdx ∨ some index = summaryIdx) :
    removable protectedIdx summaryIdx ((message, index) :: ws) = removable protectedIdx summaryIdx ws :=
  List.filter_cons_of_neg (by rw [exempt, decide_eq_true h]; decide)

theorem removable_cons_other {message : Message} {index : Nat} (ws : List (Message × Nat))
    (h : ¬(some index = protectedIdx ∨ some index = summaryIdx)) :
    removable protectedIdx summaryIdx ((message, index) :: ws) =
      (message, index) :: removable protectedIdx summaryIdx ws :=
  List.filter_cons_of_pos (by simpa [exempt] using h)

theorem totalSize_filter (protectedIdx summaryIdx : Option Nat) (ws : List (Message × Nat)) :
    totalSize (ws.map Prod.fst) = totalSize ((ws.filter (exempt protectedIdx summaryIdx)).map Prod.fst) +
      totalSize ((removable protectedIdx summaryIdx ws).map Prod.fst) := by
  induction ws with
  | nil => rfl
  | cons p ws ih =>
    cases hp : exempt protectedIdx summaryIdx p with
    | true =>
      simp only [removable, List.filter_cons, hp, Bool.not_true, Bool.false_eq_true, if_true, if_false,
        List.map_cons, totalSize_cons] at ih ⊢
      omega
    | false =>
      simp only [removable, List.filter_cons, hp, Bool.not_false, Bool.false_eq_true, if_true, if_false,
        List.map_cons, totalSize_cons] at ih ⊢
      omega

/-- While the total stays too large, every message that is not exempt is removed. -/
theorem markRemoved_through (maxLen : Nat) (protectedIdx summaryIdx : Option Nat)
    (ws rest : List (Message × Nat)) (total : Nat) (removed : List Nat)
    (hlen : removed.length + ws.length < len)
    (htotal : maxLen + totalSize ((removable protectedIdx summaryIdx ws).map Prod.fst) < total) :
    markRemoved maxLen protectedIdx summaryIdx len (ws ++ rest) total removed =
      markRemoved maxLen protectedIdx summaryIdx len rest
        (total - totalSize ((removable protectedIdx summaryIdx ws).map Prod.fst))
        (removed ++ (removable protectedIdx summaryIdx ws).map Prod.snd) := by
  induction ws generalizing total removed with
  | nil => simp [removable]
  | cons p ws ih =>
    obtain ⟨message, index⟩ := p
    simp only [List.length_cons] at hlen
    have hlarge : ¬ total ≤ maxLen := by omega
    have hmore : ¬ len - removed.length ≤ 1 := by omega
    simp only [List.cons_append, markRemoved, if_neg hlarge, if_neg hmore]
    by_cases hexempt : some index = protectedIdx ∨ some index = summaryIdx
    · rw [removable_cons_exempt ws hexempt] at htotal ⊢
      rw [if_pos hexempt]
      exact ih total removed (by omega) htotal
    · rw [removable_cons_other ws hexempt] at htotal ⊢
      simp only [List.map_cons, totalSize_cons] at htotal ⊢
      rw [if_neg hexempt, ih _ _ (by simp; omega) (by omega)]
      simp [Nat.sub_sub]

/-- Where removing them all makes the total small enough, the loop ends before `rest`. -/
theorem markRemoved_stops (ws rest : List (Message × Nat)) (total : Nat) (removed : List Nat)
    (hlen : removed.length + ws.length < len)
    (htotal : total ≤ maxLen + totalSize ((removable protectedIdx summaryIdx ws).map Prod.fst)) :
    ∃ total' removed', markRemoved maxLen protectedIdx summaryIdx len (ws ++ rest) total removed =
      (total', removed ++ removed') ∧ List.Sublist removed' ((removable protectedIdx summaryIdx ws).map Prod.snd) := by
  induction ws generalizing total removed with
  | nil =>
    have hsmall : total ≤ maxLen := by simpa [removable] using htotal
    refine ⟨total, [], ?_, List.Sublist.refl []⟩
    cases rest with
    | nil => simp [markRemoved]
    | cons p rest => simp [markRemoved, hsmall]
  | cons p ws ih =>
    obtain ⟨message, index⟩ := p
    simp only [List.length_cons] at hlen
    by_cases hsmall : total ≤ maxLen
    · exact ⟨total, [], by simp [markRemoved, hsmall], List.nil_sublist _⟩
    have hmore : ¬ len - removed.length ≤ 1 := by omega
    simp only [List.cons_append, markRemoved, if_neg hsmall, if_neg hmore]
    by_cases hexempt : some index = protectedIdx ∨ some index = summaryIdx
    · rw [removable_cons_exempt ws hexempt] at htotal ⊢
      rw [if_pos hexempt]
      exact ih total removed (by omega) htotal
    · rw [removable_cons_other ws hexempt] at htotal ⊢
      simp only [List.map_cons, totalSize_cons] at htotal
      rw [if_neg hexempt]
      obtain ⟨total', removed', hmark, hsub⟩ :=
        ih (total - message.size) (removed ++ [index]) (by simp; omega) (by omega)
      exact ⟨total', index :: removed', by simpa using hmark, hsub.cons_cons _⟩

end

/-! The last loop and the merge. -/

theorem keepOthers_eq (messages : List Message) (index : Nat) (removed : List Nat)
    (hsorted : removed.Pairwise (· < ·)) (hindex : ∀ r ∈ removed, index ≤ r) :
    keepOthers removed (messages.zipIdx index) =
      ((messages.zipIdx index).filter fun p => p.2 ∉ removed).map Prod.fst := by
  induction messages generalizing index removed with
  | nil => simp [keepOthers]
  | cons message messages ih =>
    rw [List.zipIdx_cons]
    cases removed with
    | nil => simpa [keepOthers] using ih (index + 1) [] List.Pairwise.nil (by simp)
    | cons r removed =>
      obtain ⟨hfirst, hrest⟩ := List.pairwise_cons.mp hsorted
      have hle : index ≤ r := hindex r (by simp)
      by_cases hr : r = index
      · subst hr
        rw [keepOthers, if_pos (by simp), List.tail_cons, ih (r + 1) removed hrest hfirst,
          List.filter_cons_of_neg (by simp)]
        congr 1
        apply List.filter_congr
        intro p hp
        have hlt := List.le_snd_of_mem_zipIdx hp
        have hne : p.2 ≠ r := by omega
        simp [hne]
      · have hnot : index ∉ r :: removed := by
          intro hmem
          rcases List.mem_cons.mp hmem with heq | hmem
          · exact hr heq.symm
          · have hlt := hfirst index hmem
            omega
        have hbound : ∀ q ∈ r :: removed, index + 1 ≤ q := by
          intro q hq
          have hqle := hindex q hq
          have hne : q ≠ index := fun heq => hnot (heq ▸ hq)
          omega
        rw [keepOthers, if_neg (by simpa using hr), ih (index + 1) (r :: removed) hsorted hbound,
          List.filter_cons_of_pos (by simpa using hnot), List.map_cons]

theorem keepOthers_insertionSort (messages : List Message) (removed : List Nat) (hnodup : removed.Nodup) :
    keepOthers (removed.insertionSort (· ≤ ·)) messages.zipIdx =
      (messages.zipIdx.filter fun p => p.2 ∉ removed).map Prod.fst := by
  have hperm := List.perm_insertionSort (· ≤ ·) removed
  have hsorted : (removed.insertionSort (· ≤ ·)).Pairwise (· < ·) := by
    have hle := List.pairwise_insertionSort (· ≤ ·) removed
    have hne : (removed.insertionSort (· ≤ ·)).Nodup := hperm.nodup_iff.mpr hnodup
    exact (hle.and hne).imp fun h => lt_of_le_of_ne h.1 h.2
  rw [keepOthers_eq messages 0 _ hsorted (fun _ _ => Nat.zero_le _)]
  congr 1
  apply List.filter_congr
  intro p _
  exact decide_eq_decide.mpr (not_congr hperm.mem_iff)

/-- The last message of a merge ends as the last message does that goes in. -/
theorem mergeFrom_last {role : String} {text : List Char} (messages : List Message) (message last : Message)
    (hlast : (message :: messages).getLast? = some last) (hrole : last.role = role)
    (htext : text <:+ last.content.toList) :
    ∃ merged, (mergeFrom message messages).getLast? = some merged ∧ merged.role = role ∧
      text <:+ merged.content.toList := by
  induction messages generalizing message with
  | nil =>
    obtain rfl : message = last := by simpa using hlast
    exact ⟨message, rfl, hrole, htext⟩
  | cons next messages ih =>
    rw [List.getLast?_cons_cons] at hlast
    rw [mergeFrom]
    split
    · rename_i hmerge
      cases messages with
      | nil =>
        obtain rfl : next = last := by simpa using hlast
        refine ⟨{ message with content := message.content ++ "\n" ++ next.content }, rfl,
          hmerge.1.trans hrole, ?_⟩
        simp only [String.toList_append]
        exact htext.trans (List.suffix_append _ _)
      | cons other messages =>
        exact ih _ (by rwa [List.getLast?_cons_cons] at hlast ⊢)
    · obtain ⟨merged, hmerged, hend⟩ := ih next hlast
      refine ⟨merged, ?_, hend⟩
      rw [List.getLast?_cons, hmerged]
      rfl

theorem EndsWithUser.merge {content : String} {messages : List Message} (h : EndsWithUser content messages) :
    EndsWithUser content (mergeConsecutiveSameRole messages) := by
  obtain ⟨last, hlast, hrole, htext⟩ := h
  cases messages with
  | nil => cases hlast
  | cons message messages => exact mergeFrom_last messages message last hlast hrole htext

/-! What the truncation leaves, by what the first loop does. -/

/-- Messages that a merge leaves apart: one, or two of which the first is a summary. -/
def Apart (messages : List Message) : Prop :=
  ∃ first rest, messages = first :: rest ∧ rest.length ≤ 1 ∧ (rest ≠ [] → first.isSummary = true)

theorem Apart.merge {messages : List Message} (h : Apart messages) :
    mergeConsecutiveSameRole messages = messages := by
  obtain ⟨first, rest, rfl, hlen, hsummary⟩ := h
  match rest with
  | [] => rfl
  | [next] =>
    have hfirst := hsummary (by simp)
    simp [mergeConsecutiveSameRole, mergeFrom, hfirst]
  | _ :: _ :: _ => simp at hlen

theorem filter_index_length_le (messages : List Message) (start : Nat) (index : Option Nat) :
    ((messages.zipIdx start).filter fun p => some p.2 = index).length ≤ 1 := by
  induction messages generalizing start with
  | nil => simp
  | cons message messages ih =>
    rw [List.zipIdx_cons]
    by_cases hstart : some start = index
    · have hrest : (messages.zipIdx (start + 1)).filter (fun p => some p.2 = index) = [] := by
        apply List.filter_eq_nil_iff.mpr
        intro p hp
        have hlt := List.le_snd_of_mem_zipIdx hp
        simp only [← hstart, decide_eq_true_eq, Option.some.injEq]
        omega
      rw [List.filter_cons_of_pos (by simpa using hstart), hrest]
      simp
    · rw [List.filter_cons_of_neg (by simpa using hstart)]
      exact ih (start + 1)

section
variable {front : List Message} {last : Message} {maxLen : Nat} {protectedIdx : Option Nat}
  {preserveSummary : Bool} {summaryIdx : Option Nat} {messages : List Message}

/-- The messages after the first that the offset protects. -/
def protectedAfter (protectedIdx : Option Nat) (start : Nat) (messages : List Message) : List Message :=
  ((messages.zipIdx start).filter fun p => some p.2 = protectedIdx).map Prod.fst

theorem filter_exempt_after (messages : List Message) :
    (messages.zipIdx 1).filter (exempt protectedIdx (some 0)) =
      (messages.zipIdx 1).filter fun p => some p.2 = protectedIdx := by
  apply List.filter_congr
  intro p hp
  have hle := List.le_snd_of_mem_zipIdx hp
  have hpos : p.2 ≠ 0 := by omega
  simp [exempt, hpos]

theorem exemptMessages_summary (s : Message) (rest : List Message) :
    exemptMessages protectedIdx (some 0) (s :: rest) = s :: protectedAfter protectedIdx 1 rest := by
  rw [exemptMessages, List.zipIdx_cons, List.filter_cons_of_pos (by simp [exempt]), filter_exempt_after]
  rfl

theorem exemptMessages_plain (messages : List Message) :
    exemptMessages protectedIdx none messages = protectedAfter protectedIdx 0 messages := by
  have hexempt : exempt protectedIdx none = fun p => decide (some p.2 = protectedIdx) := by
    funext p
    simp [exempt]
  rw [exemptMessages, hexempt]
  rfl

theorem protectedAfter_length_le (start : Nat) (messages : List Message) :
    (protectedAfter protectedIdx start messages).length ≤ 1 := by
  rw [protectedAfter, List.length_map]
  exact filter_index_length_le messages start protectedIdx

theorem apart_of_length_le (hlen : messages.length ≤ 1) (hne : messages ≠ []) : Apart messages := by
  obtain ⟨first, rest, rfl⟩ := List.exists_cons_of_ne_nil hne
  have hrest : rest = [] := by simpa using hlen
  exact ⟨first, rest, rfl, by simp [hrest], fun h => absurd hrest h⟩

/-- What keeps the last message from being removed. -/
def LastKept (protectedIdx summaryIdx : Option Nat) (maxLen : Nat) (front : List Message) (last : Message) : Prop :=
  protectedIdx = some front.length ∨ exemptMessages protectedIdx summaryIdx front = [] ∨
    totalSize (exemptMessages protectedIdx summaryIdx front) + last.size ≤ maxLen

theorem totalSize_window (front : List Message) (last : Message) (protectedIdx summaryIdx : Option Nat) :
    totalSize (front ++ [last]) =
    totalSize (exemptMessages protectedIdx summaryIdx front) +
      totalSize ((removable protectedIdx summaryIdx front.zipIdx).map Prod.fst) + last.size := by
  have hfront := totalSize_filter protectedIdx summaryIdx front.zipIdx
  rw [List.zipIdx_map_fst] at hfront
  rw [totalSize_append, hfront]
  simp [exemptMessages]

theorem length_removable (front : List Message) (protectedIdx summaryIdx : Option Nat) :
    (exemptMessages protectedIdx summaryIdx front).length +
      (removable protectedIdx summaryIdx front.zipIdx).length = front.length := by
  have hsplit := List.length_eq_length_filter_add (l := front.zipIdx) (exempt protectedIdx summaryIdx)
  rw [List.length_zipIdx] at hsplit
  rw [exemptMessages, List.length_map]
  exact hsplit.symm

/-- What the first loop gives when the exempt messages and the last one are too large together. -/
theorem markRemoved_large (hsummary : summaryIdx ≠ some front.length)
    (hlarge : maxLen < totalSize (exemptMessages protectedIdx summaryIdx front) + last.size) :
    markRemoved maxLen protectedIdx summaryIdx (front ++ [last]).length (front ++ [last]).zipIdx
        (totalSize (front ++ [last])) [] =
      if protectedIdx = some front.length ∨ exemptMessages protectedIdx summaryIdx front = [] then
        (totalSize (exemptMessages protectedIdx summaryIdx front) + last.size,
          (removable protectedIdx summaryIdx front.zipIdx).map Prod.snd)
      else
        (totalSize (exemptMessages protectedIdx summaryIdx front),
          (removable protectedIdx summaryIdx front.zipIdx).map Prod.snd ++ [front.length]) := by
  have htotal := totalSize_window front last protectedIdx summaryIdx
  have hlength := length_removable front protectedIdx summaryIdx
  have hlen : ([] : List Nat).length + front.zipIdx.length < (front ++ [last]).length := by simp
  have hthrough := markRemoved_through maxLen protectedIdx summaryIdx front.zipIdx [(last, front.length)]
    (totalSize (front ++ [last])) [] hlen (by omega)
  have hleft : totalSize (front ++ [last]) -
      totalSize ((removable protectedIdx summaryIdx front.zipIdx).map Prod.fst) =
        totalSize (exemptMessages protectedIdx summaryIdx front) + last.size := by omega
  rw [List.zipIdx_append, Nat.zero_add, List.zipIdx_singleton, hthrough, hleft, List.nil_append]
  simp only [markRemoved, if_neg (Nat.not_le.mpr hlarge)]
  by_cases hprotected : protectedIdx = some front.length
  · rw [if_pos (.inl hprotected.symm), if_pos (.inl hprotected)]
  · have hother : ¬(some front.length = protectedIdx ∨ some front.length = summaryIdx) :=
      fun h => h.elim (fun h => hprotected h.symm) (fun h => hsummary h.symm)
    rw [if_neg hother, List.length_map, List.length_append, List.length_singleton]
    by_cases hempty : exemptMessages protectedIdx summaryIdx front = []
    · rw [hempty, List.length_nil] at hlength
      rw [if_pos (by omega), if_pos (.inr hempty)]
    · have hpos := List.length_pos_iff.mpr hempty
      rw [if_neg (by omega), if_neg (by simp [hprotected, hempty]), Nat.add_sub_cancel]

/-- Where the last message is safe the first loop removes only earlier ones. -/
theorem markRemoved_keeps (hsummary : summaryIdx ≠ some front.length)
    (h : LastKept protectedIdx summaryIdx maxLen front last) :
    ∃ total removed, markRemoved maxLen protectedIdx summaryIdx (front ++ [last]).length (front ++ [last]).zipIdx
        (totalSize (front ++ [last])) [] = (total, removed) ∧
      List.Sublist removed ((removable protectedIdx summaryIdx front.zipIdx).map Prod.snd) := by
  by_cases hfits : totalSize (exemptMessages protectedIdx summaryIdx front) + last.size ≤ maxLen
  · have htotal := totalSize_window front last protectedIdx summaryIdx
    rw [List.zipIdx_append]
    exact markRemoved_stops front.zipIdx _ _ [] (by simp) (by omega)
  · have hsafe : protectedIdx = some front.length ∨ exemptMessages protectedIdx summaryIdx front = [] := by
      rcases h with h | h | h
      · exact .inl h
      · exact .inr h
      · exact absurd h hfits
    refine ⟨_, _, (markRemoved_large hsummary (Nat.lt_of_not_le hfits)).trans (if_pos hsafe), List.Sublist.refl _⟩

theorem nodup_removable (summaryIdx : Option Nat) (messages : List Message) :
    ((removable protectedIdx summaryIdx messages.zipIdx).map Prod.snd).Nodup := by
  have hsub : List.Sublist ((removable protectedIdx summaryIdx messages.zipIdx).map Prod.snd)
      (messages.zipIdx.map Prod.snd) := List.Sublist.map _ List.filter_sublist
  apply hsub.nodup
  rw [List.zipIdx_map_snd]
  exact List.nodup_range'

theorem mem_removable {index : Nat} (h : index ∈ (removable protectedIdx summaryIdx messages.zipIdx).map Prod.snd) :
    index < messages.length ∧ some index ≠ protectedIdx ∧ some index ≠ summaryIdx := by
  obtain ⟨p, hp, rfl⟩ := List.mem_map.mp h
  obtain ⟨hmem, hexempt⟩ := List.mem_filter.mp hp
  have hlt := List.snd_lt_of_mem_zipIdx hmem
  simp only [exempt, Bool.not_eq_true', decide_eq_false_iff_not, not_or] at hexempt
  exact ⟨by omega, hexempt⟩

theorem summaryIndex_ne (hfront : preserveSummary = true → front ≠ []) :
    summaryIndex preserveSummary ≠ some front.length := by
  cases preserveSummary with
  | true =>
    have hpos := List.length_pos_iff.mpr (hfront rfl)
    simp only [summaryIndex, if_true, ne_eq, Option.some.injEq]
    omega
  | false => simp [summaryIndex]

theorem markSummary_cases (maxLen len total : Nat) (protectedIdx : Option Nat) (preserveSummary : Bool)
    (removed : List Nat) :
    markSummary maxLen protectedIdx (summaryIndex preserveSummary) len (total, removed) = removed ∨
      preserveSummary = true ∧ 1 < len - removed.length ∧
        markSummary maxLen protectedIdx (summaryIndex preserveSummary) len (total, removed) = removed ++ [0] := by
  rw [markSummary]
  cases preserveSummary with
  | true =>
    split
    · rename_i h
      exact .inr ⟨rfl, h.2.2.1, rfl⟩
    · exact .inl rfl
  | false => exact .inl (if_neg (by simp [summaryIndex]))

theorem nodup_append_singleton {removed : List Nat} {index : Nat} (hnodup : removed.Nodup) (hnot : index ∉ removed) :
    (removed ++ [index]).Nodup := by
  rw [← List.concat_eq_append]
  exact hnodup.concat hnot

theorem truncate_keeps (hfront : preserveSummary = true → front ≠ [])
    (h : LastKept protectedIdx (summaryIndex preserveSummary) maxLen front last) :
    ∃ kept, truncateMessagesToLen (front ++ [last]) maxLen protectedIdx preserveSummary =
      mergeConsecutiveSameRole (kept ++ [last]) := by
  have hsummary := summaryIndex_ne hfront
  obtain ⟨total, removed, hmark, hsub⟩ := markRemoved_keeps hsummary h
  have hremoved : ∀ index ∈ removed, index < front.length ∧ some index ≠ summaryIndex preserveSummary := by
    intro index hindex
    obtain ⟨hlt, -, hne⟩ := mem_removable (hsub.subset hindex)
    exact ⟨hlt, hne⟩
  have hnodup : removed.Nodup := hsub.nodup (nodup_removable _ _)
  have hkeep : ∀ others : List Nat, others.Nodup → (∀ index ∈ others, index < front.length) →
      ∃ kept, keepOthers (others.insertionSort (· ≤ ·)) (front ++ [last]).zipIdx = kept ++ [last] := by
    intro others hothers hlt
    have hnot : front.length ∉ others := fun hmem => Nat.lt_irrefl _ (hlt _ hmem)
    rw [keepOthers_insertionSort _ _ hothers, List.zipIdx_append, List.filter_append, List.map_append]
    have hlast : ([last].zipIdx (0 + front.length)).filter (fun p => p.2 ∉ others) = [(last, front.length)] := by
      simp [hnot]
    rw [hlast]
    exact ⟨_, rfl⟩
  rw [truncateMessagesToLen, hmark]
  rcases markSummary_cases maxLen (front ++ [last]).length total protectedIdx preserveSummary removed
    with hsecond | ⟨rfl, -, hsecond⟩
  · obtain ⟨kept, hkept⟩ := hkeep removed hnodup fun index hindex => (hremoved index hindex).1
    exact ⟨kept, by rw [hsecond, hkept]⟩
  · have hpos := List.length_pos_iff.mpr (hfront rfl)
    have hzero : 0 ∉ removed := fun hmem => (hremoved 0 hmem).2 rfl
    obtain ⟨kept, hkept⟩ := hkeep (removed ++ [0]) (nodup_append_singleton hnodup hzero) (by
      intro index hindex
      rcases List.mem_append.mp hindex with hindex | hindex
      · exact (hremoved index hindex).1
      · rwa [List.mem_singleton.mp hindex])
    exact ⟨kept, by rw [hsecond, hkept]⟩

theorem mem_removable_iff (protectedIdx summaryIdx : Option Nat) {ws : List (Message × Nat)} {p : Message × Nat}
    (hp : p ∈ ws) :
    p.2 ∈ (removable protectedIdx summaryIdx ws).map Prod.snd ↔ exempt protectedIdx summaryIdx p = false := by
  constructor
  · intro h
    obtain ⟨q, hq, hindex⟩ := List.mem_map.mp h
    have hexempt := (List.mem_filter.mp hq).2
    simp only [exempt, hindex, Bool.not_eq_true'] at hexempt ⊢
    exact hexempt
  · exact fun h => List.mem_map_of_mem (List.mem_filter.mpr ⟨hp, by simp [h]⟩)

/-- With the last message gone too, the exempt ones are what is left. -/
theorem filter_last_removed (summaryIdx : Option Nat) :
    (front ++ [last]).zipIdx.filter (fun p =>
        p.2 ∉ (removable protectedIdx summaryIdx front.zipIdx).map Prod.snd ++ [front.length]) =
      front.zipIdx.filter (exempt protectedIdx summaryIdx) := by
  have hlast : [(last, front.length)].filter (fun p =>
      p.2 ∉ (removable protectedIdx summaryIdx front.zipIdx).map Prod.snd ++ [front.length]) = [] := by
    simp
  rw [List.zipIdx_append, Nat.zero_add, List.zipIdx_singleton, List.filter_append, hlast, List.append_nil]
  apply List.filter_congr
  intro p hp
  have hne : p.2 ≠ front.length := Nat.ne_of_lt (by simpa using List.snd_lt_of_mem_zipIdx hp)
  have hmem := mem_removable_iff protectedIdx summaryIdx hp
  cases hexempt : exempt protectedIdx summaryIdx p with
  | true =>
    rw [hexempt] at hmem
    exact decide_eq_true (by simpa [hne] using hmem)
  | false =>
    have hremoved := List.mem_append_left [front.length] (hmem.mpr hexempt)
    exact decide_eq_false (not_not.mpr hremoved)

theorem nodup_last_removed (summaryIdx : Option Nat) :
    ((removable protectedIdx summaryIdx front.zipIdx).map Prod.snd ++ [front.length]).Nodup :=
  nodup_append_singleton (nodup_removable summaryIdx front) fun h => Nat.lt_irrefl _ (mem_removable h).1

theorem keepOthers_last_removed (summaryIdx : Option Nat) :
    keepOthers (((removable protectedIdx summaryIdx front.zipIdx).map Prod.snd ++ [front.length]).insertionSort
      (· ≤ ·)) (front ++ [last]).zipIdx = exemptMessages protectedIdx summaryIdx front := by
  rw [keepOthers_insertionSort _ _ (nodup_last_removed summaryIdx), filter_last_removed]
  rfl

theorem keepOthers_summary_removed (s : Message) (rest : List Message) :
    keepOthers (((removable protectedIdx (some 0) (s :: rest).zipIdx).map Prod.snd ++ [(s :: rest).length] ++
      [0]).insertionSort (· ≤ ·)) (s :: rest ++ [last]).zipIdx = protectedAfter protectedIdx 1 rest := by
  have hzero : 0 ∉ (removable protectedIdx (some 0) (s :: rest).zipIdx).map Prod.snd ++ [(s :: rest).length] := by
    intro h
    rcases List.mem_append.mp h with h | h
    · exact (mem_removable h).2.2 rfl
    · simp at h
  have hsplit : (fun p : Message × Nat => decide (p.2 ∉ (removable protectedIdx (some 0) (s :: rest).zipIdx).map
      Prod.snd ++ [(s :: rest).length] ++ [0])) = fun p => decide (p.2 ≠ 0) && decide (p.2 ∉
        (removable protectedIdx (some 0) (s :: rest).zipIdx).map Prod.snd ++ [(s :: rest).length]) := by
    funext p
    rw [← Bool.decide_and]
    apply decide_eq_decide.mpr
    rw [List.mem_append, not_or, List.mem_singleton, and_comm]
  rw [keepOthers_insertionSort _ _ (nodup_append_singleton (nodup_last_removed (some 0)) hzero), hsplit,
    ← List.filter_filter, filter_last_removed, List.zipIdx_cons, List.filter_cons_of_pos (by simp [exempt]),
    List.filter_cons_of_neg (by simp), Nat.zero_add, filter_exempt_after, protectedAfter]
  congr 1
  apply List.filter_eq_self.mpr
  intro p hp
  have hle := List.le_snd_of_mem_zipIdx (List.mem_of_mem_filter hp)
  exact decide_eq_true (by omega)

theorem truncate_loses (hsummary : preserveSummary = true → ∃ s rest, front = s :: rest ∧ s.isSummary = true)
    (h : ¬ LastKept protectedIdx (summaryIndex preserveSummary) maxLen front last) :
    (truncateMessagesToLen (front ++ [last]) maxLen protectedIdx preserveSummary).getLast? =
      (exemptMessages protectedIdx (summaryIndex preserveSummary) front).getLast? := by
  simp only [LastKept, not_or, Nat.not_le] at h
  obtain ⟨hprotected, hne, hlarge⟩ := h
  have hfront : preserveSummary = true → front ≠ [] := by
    intro hpreserve
    obtain ⟨s, rest, rfl, -⟩ := hsummary hpreserve
    simp
  have hmark := markRemoved_large (summaryIndex_ne hfront) hlarge
  rw [if_neg (by simp [hprotected, hne])] at hmark
  rw [truncateMessagesToLen, hmark]
  rcases markSummary_cases maxLen (front ++ [last]).length
      (totalSize (exemptMessages protectedIdx (summaryIndex preserveSummary) front)) protectedIdx preserveSummary
      ((removable protectedIdx (summaryIndex preserveSummary) front.zipIdx).map Prod.snd ++ [front.length])
    with hsecond | ⟨rfl, hlen, hsecond⟩
  · rw [hsecond, keepOthers_last_removed, Apart.merge]
    cases preserveSummary with
    | true =>
      obtain ⟨s, rest, rfl, hs⟩ := hsummary rfl
      exact ⟨s, _, exemptMessages_summary s rest, protectedAfter_length_le 1 rest, fun _ => hs⟩
    | false =>
      refine apart_of_length_le ?_ hne
      rw [summaryIndex, if_neg Bool.false_ne_true, exemptMessages_plain]
      exact protectedAfter_length_le 0 front
  · obtain ⟨s, rest, rfl, hs⟩ := hsummary rfl
    have hlength := length_removable (s :: rest) protectedIdx (some 0)
    simp only [summaryIndex, if_true, exemptMessages_summary, List.length_cons, List.length_append, List.length_map,
      List.length_nil] at hlength hlen
    have hafter : protectedAfter protectedIdx 1 rest ≠ [] := List.length_pos_iff.mp (by omega)
    rw [hsecond, summaryIndex, if_pos rfl, keepOthers_summary_removed,
      (apart_of_length_le (protectedAfter_length_le 1 rest) hafter).merge, exemptMessages_summary,
      List.getLast?_cons_of_ne_nil hafter]

end

/-! The window before anything is removed. -/

/-- The current message is the last one, on its own or after others of the user. -/
theorem endsWithUser_push (messages : List Message) (content : String) :
    ∃ front last, (pushContextMessage messages "user" content).1 = front ++ [last] ∧ last.role = "user" ∧
      content.toList <:+ last.content.toList := by
  rw [pushContextMessage]
  split
  · rename_i last hlast
    split
    · rename_i hjoin
      refine ⟨_, _, rfl, hjoin.1, ?_⟩
      simp only [String.toList_append]
      exact List.suffix_append _ _
    · exact ⟨messages, _, rfl, rfl, List.suffix_refl _⟩
  · exact ⟨messages, _, rfl, rfl, List.suffix_refl _⟩

/-- Nothing is joined to a summary. -/
theorem pushContextMessage_summary {s : Message} (hs : s.isSummary = true) (rest : List Message)
    (role content : String) :
    ∃ rest', (pushContextMessage (s :: rest) role content).1 = s :: rest' ∧ rest' ≠ [] := by
  rw [pushContextMessage]
  split
  · rename_i last hlast
    cases rest with
    | nil =>
      obtain rfl : s = last := by simpa using hlast
      rw [if_neg (by simp [hs])]
      exact ⟨[⟨role, content⟩], rfl, by simp⟩
    | cons next rest =>
      split
      · exact ⟨_, rfl, by simp⟩
      · exact ⟨_, rfl, by simp⟩
  · rename_i hlast
    simp at hlast

theorem pushSessionMessages_summary {s : Message} (hs : s.isSummary = true) (recent : List SessionMessage)
    (rest : List Message) (indices : List Nat) :
    ∃ rest', (pushSessionMessages (s :: rest) indices recent).1 = s :: rest' := by
  induction recent generalizing rest indices with
  | nil => exact ⟨rest, rfl⟩
  | cons m recent ih =>
    obtain ⟨rest', hpush, -⟩ := pushContextMessage_summary hs rest m.role m.content
    simp only [pushSessionMessages, hpush]
    exact ih rest' _

theorem isSummary_buildContextSummaryMessage (role summary : String) :
    (Message.mk role (buildContextSummaryMessage summary)).isSummary = true := by
  simp [Message.isSummary, buildContextSummaryMessage, List.append_assoc]

theorem assembleMessages_summary (summary : String) (recent : List SessionMessage) (content : String) :
    ∃ s rest, (assembleMessages (some summary) recent content).1 = s :: rest ∧ s.isSummary = true ∧ rest ≠ [] := by
  have hs := isSummary_buildContextSummaryMessage "user" summary
  obtain ⟨rest, hrecent⟩ := pushSessionMessages_summary hs recent [] []
  obtain ⟨rest', hpush, hne⟩ := pushContextMessage_summary hs rest "user" content
  refine ⟨_, rest', ?_, hs, hne⟩
  rw [assembleMessages]
  simp only [Option.toList_some, List.map_cons, List.map_nil, hrecent, hpush]

namespace ContextStores

/-- In the assembled window the message that the current one ends is the protected one,
or nothing before it is exempt from removal, or it fits next to what is exempt, or the
last exempt message happens to be one of the user that ends with the same text. -/
def CurrentFits (stores : ContextStores) (chatId content : String) (recentMessagesLimit messagesMaxLen : Nat)
    (summaryText : Option String) (recentOverride : Option (List SessionMessage)) : Prop :=
  let recent := stores.recentMessages chatId recentMessagesLimit recentOverride
  let (messages, indices) := assembleMessages summaryText recent content
  let protectedIdx := protectedIndex indices (stores.importantOffset chatId)
  let kept := exemptMessages protectedIdx (summaryIndex summaryText.isSome) messages.dropLast
  protectedIdx = some (messages.length - 1) ∨ kept = [] ∨
    totalSize (kept ++ messages.getLast?.toList) ≤ messagesMaxLen ∨ EndsWithUser content kept

/-- The window ends with the current message just when this fits. -/
theorem current_message_kept_iff (stores : ContextStores) (chatId content : String)
    (recentMessagesLimit messagesMaxLen : Nat) (summaryText : Option String)
    (recentOverride : Option (List SessionMessage)) :
    EndsWithUser content (stores.buildContextMessages chatId content recentMessagesLimit messagesMaxLen summaryText
        recentOverride) ↔
      stores.CurrentFits chatId content recentMessagesLimit messagesMaxLen summaryText recentOverride := by
  simp only [buildContextMessages, CurrentFits]
  generalize stores.recentMessages chatId recentMessagesLimit recentOverride = recent
  obtain ⟨front, last, hwindow, hrole, htext⟩ :
      ∃ front last, (assembleMessages summaryText recent content).1 = front ++ [last] ∧ last.role = "user" ∧
        content.toList <:+ last.content.toList := endsWithUser_push _ content
  have hsummary : summaryText.isSome = true → ∃ s rest, front = s :: rest ∧ s.isSummary = true := by
    intro hsome
    obtain ⟨summary, rfl⟩ := Option.isSome_iff_exists.mp hsome
    obtain ⟨s, rest, hcons, hs, hne⟩ := assembleMessages_summary summary recent content
    have hfront : front = (s :: rest).dropLast := by rw [← hcons, hwindow, List.dropLast_concat]
    exact ⟨s, rest.dropLast, by rw [hfront, List.dropLast_cons_of_ne_nil hne], hs⟩
  generalize protectedIndex (assembleMessages summaryText recent content).2 (stores.importantOffset chatId) =
    protectedIdx
  have hsize : totalSize (exemptMessages protectedIdx (summaryIndex summaryText.isSome) front ++ [last]) =
      totalSize (exemptMessages protectedIdx (summaryIndex summaryText.isSome) front) + last.size := by simp
  rw [hwindow, List.dropLast_concat, List.getLast?_concat, List.length_append, List.length_singleton,
    Nat.add_sub_cancel, Option.toList_some, hsize]
  by_cases hkept : LastKept protectedIdx (summaryIndex summaryText.isSome) messagesMaxLen front last
  · have hfront : summaryText.isSome = true → front ≠ [] := by
      intro hsome
      obtain ⟨s, rest, rfl, -⟩ := hsummary hsome
      simp
    obtain ⟨kept, htruncate⟩ := truncate_keeps hfront hkept
    have hends : EndsWithUser content (kept ++ [last]) := ⟨last, List.getLast?_concat, hrole, htext⟩
    rw [htruncate]
    exact ⟨fun _ => hkept.imp_right (Or.imp_right Or.inl), fun _ => hends.merge⟩
  · rw [EndsWithUser, truncate_loses hsummary hkept]
    simp only [LastKept, not_or] at hkept
    simp only [hkept.1, hkept.2.1, hkept.2.2, false_or]
    rfl

/-! A summary and a current message that are too large together. -/

def emptyStores : ContextStores := ⟨fun _ _ => .ok [], fun _ => .ok none⟩

theorem current_message_removed :
    ¬ EndsWithUser "hello" (emptyStores.buildContextMessages "chat" "hello" 3 40 (some "s") none) := by
  have hwindow : emptyStores.buildContextMessages "chat" "hello" 3 40 (some "s") none =
      [⟨"user", "[CONTEXT_SUMMARY]\ns\n[/CONTEXT_SUMMARY]"⟩] := by
    decide
  rw [hwindow]
  rintro ⟨last, ⟨⟩, -, htext⟩
  exact absurd htext (by decide)

end ContextStores
end Beetle.Memory
