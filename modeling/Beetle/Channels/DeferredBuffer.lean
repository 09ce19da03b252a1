import Beetle.Channels.Dispatch
import Beetle.Lib.Run

/-! The buffer of deferred messages over any run: how long it gets, in which order it is, and what leaves it. -/
namespace Beetle.Channels
open Beetle.Lib

/-- A message with the number of its arrival. -/
abbrev Arrival := OutboundMsg × Nat

/-- The buffer and its history. `arrived` has a message that replaced another at the place of that one. -/
structure Deferral (σ : Type*) where
  buffer : List Arrival
  arrived : List Arrival
  count : Nat
  sent : List Arrival
  outside : σ
  deriving DecidableEq

inductive Call where
  | withoutReplay (msg : OutboundMsg)
  | withReplay (msg : OutboundMsg)
  | replay

/-- The message that a call puts into the buffer. -/
def Call.msg : Call → Option OutboundMsg
  | .withoutReplay msg => some msg
  | .withReplay msg => some msg
  | .replay => none

namespace Deferral
variable {σ : Type*} (build : Build) (isInCooldown : String → σ → Bool × σ) (send : OutboundMsg → σ → Bool × σ)

def start (s : σ) : Deferral σ := ⟨[], [], 0, [], s⟩

/-- The answers from outside, with a record of what is sent. -/
def askCooldown (channel : String) (s : σ × List Arrival) : Bool × σ × List Arrival :=
  let (inCooldown, t) := isInCooldown channel s.1
  (inCooldown, t, s.2)

def askSend (b : Arrival) (s : σ × List Arrival) : Bool × σ × List Arrival :=
  match send b.1 s.1 with
  | (true, t) => (true, t, s.2 ++ [b])
  | (false, t) => (false, t, s.2)

def replayPass (buffer : List Arrival) (s : σ × List Arrival) : List Arrival × σ × List Arrival :=
  replayCooldownBufferWith Prod.fst (askCooldown isInCooldown) (askSend send) buffer s

/-- A new message comes after all others, unless it replaces one. -/
def arrive (s : Deferral σ) (m : Arrival) : List Arrival :=
  match s.buffer.find? fun buffered => m.1.coalesces buffered.1 with
  | some old => s.arrived.map fun a => if a = old then m else a
  | none => s.arrived ++ [m]

/-- A message has come, and this is what its push has made of the buffer, the world outside and the record. -/
def deferred (s : Deferral σ) (msg : OutboundMsg) (made : List Arrival × σ × List Arrival) : Deferral σ :=
  ⟨made.1, s.arrive (msg, s.count), s.count + 1, made.2.2, made.2.1⟩

@[grind =] def step (s : Deferral σ) : Call → Option (Deferral σ)
  | .withoutReplay msg =>
    let (_, buffer) := bufferDeferredMsgWithoutReplay Prod.fst (cooldownBufferMax build) s.buffer (msg, s.count)
    some (s.deferred msg (buffer, s.outside, s.sent))
  | .withReplay msg =>
    some (s.deferred msg (bufferDeferredMsgWithReplay Prod.fst (cooldownBufferMax build)
      (replayPass isInCooldown send) s.buffer (msg, s.count) (s.outside, s.sent)).2)
  | .replay =>
    let (buffer, t, sent) := replayPass isInCooldown send s.buffer (s.outside, s.sent)
    some ⟨buffer, s.arrived, s.count, sent, t⟩

/-- The buffer is not too long, and in the order of arrival. -/
structure Tidy (s : Deferral σ) : Prop where
  bounded : s.buffer.length ≤ cooldownBufferMax build
  ordered : s.buffer.Sublist s.arrived

/-- What becomes of the primaries in one step. -/
structure Keeps (s : Deferral σ) (c : Call) (t : Deferral σ) : Prop where
  leaves : ∀ b ∈ s.buffer, b.1.isSupplemental = false → b ∈ t.buffer ∨
    (∃ newly, t.sent = s.sent ++ newly ∧ b ∈ newly) ∨
    ∃ msg, c.msg = some msg ∧ msg.coalesces b.1 = true ∧
      t.buffer = s.buffer.map fun a => if a = b then (msg, s.count) else a
  discards : ∀ msg, c.msg = some msg → msg.isSupplemental = false → (msg, s.count) ∉ t.buffer →
    t.buffer.length = cooldownBufferMax build ∧
      ∀ b ∈ t.buffer, b.1.isSupplemental = false ∧ msg.coalesces b.1 = false

/-- What every state has; the numbers tell the messages apart. -/
structure Inv (s : Deferral σ) : Prop where
  tidy : s.Tidy build
  nodup : s.arrived.Nodup
  early : ∀ a ∈ s.arrived, a.2 < s.count

variable {build isInCooldown send} {buffer : List Arrival} {s t : Deferral σ} {msg : OutboundMsg} {c : Call}
  {front back : List Arrival}

/-! Passes. -/

/-- What is not sent stays, in order. -/
theorem replayPass_spec (buffer : List Arrival) (s : σ) (log : List Arrival) : ∃ newly,
    (replayPass isInCooldown send buffer (s, log)).2.2 = log ++ newly ∧
      (replayPass isInCooldown send buffer (s, log)).1.Sublist buffer ∧
      ∀ b ∈ buffer, b ∈ (replayPass isInCooldown send buffer (s, log)).1 ∨ b ∈ newly := by
  unfold replayPass
  induction buffer generalizing s log with
  | nil => exact ⟨[], by simp [replayCooldownBufferWith], List.Sublist.slnil, by simp⟩
  | cons b buffer ih =>
    rcases hcool : isInCooldown b.1.channel s with ⟨_ | _, t⟩
    · have hask : askCooldown isInCooldown b.1.channel (s, log) = (false, t, log) := by simp [askCooldown, hcool]
      rcases hsend : send b.1 t with ⟨_ | _, u⟩
      · have htry : askSend send b (t, log) = (false, u, log) := by simp [askSend, hsend]
        rw [replay_refused buffer hask htry]
        exact ⟨[], by simp, List.Sublist.refl _, fun c hc => .inl hc⟩
      · have htry : askSend send b (t, log) = (true, u, log ++ [b]) := by simp [askSend, hsend]
        rw [replay_sent buffer hask htry]
        obtain ⟨newly, hlog, hsub, hall⟩ := ih u (log ++ [b])
        refine ⟨b :: newly, by rw [hlog, List.append_assoc]; rfl, hsub.trans (List.sublist_cons_self b buffer), ?_⟩
        intro c hc
        rcases List.mem_cons.mp hc with rfl | hc
        · exact .inr List.mem_cons_self
        · exact (hall c hc).imp id (List.mem_cons_of_mem b)
    · have hask : askCooldown isInCooldown b.1.channel (s, log) = (true, t, log) := by simp [askCooldown, hcool]
      rw [replay_cooldown buffer hask]
      obtain ⟨newly, hlog, hsub, hall⟩ := ih t log
      refine ⟨newly, hlog, hsub.cons_cons b, ?_⟩
      intro c hc
      rcases List.mem_cons.mp hc with rfl | hc
      · exact .inl List.mem_cons_self
      · exact (hall c hc).imp (List.mem_cons_of_mem b) id

/-! Pushes. -/

/-- What a push of a message that replaces none does. -/
structure Pushed (build : Build) (buffer : List Arrival) (m : Arrival) (buffer' : List Arrival) : Prop where
  bounded : buffer'.length ≤ cooldownBufferMax build
  ordered : ∀ arrived, buffer.Sublist arrived → buffer'.Sublist (arrived ++ [m])
  keeps : ∀ b ∈ buffer, b.1.isSupplemental = false → b ∈ buffer'
  discards : m.1.isSupplemental = false → m ∉ buffer' → buffer'.length = cooldownBufferMax build ∧
    ∀ b ∈ buffer', b.1.isSupplemental = false ∧ m.1.coalesces b.1 = false

theorem pushed_of_none (m : Arrival) (hlen : buffer.length ≤ cooldownBufferMax build)
    (hnone : ∀ b ∈ buffer, m.1.coalesces b.1 = false) :
    Pushed build buffer m (tryPushBufferedMsg Prod.fst (cooldownBufferMax build) buffer m).2 := by
  rcases @tryPush_cases _ Prod.fst _ buffer m with ⟨front, old, back, hbuffer, hold, -⟩ | ⟨-, hcases⟩
  · rw [hnone old (by rw [hbuffer]; simp)] at hold
    cases hold
  · rcases hcases with ⟨hroom, hpush⟩ | ⟨-, hkind, hpush⟩ | ⟨-, -, front, old, back, hbuffer, hold, hpush⟩ |
        ⟨hfull, -, hprimary, hpush⟩
    · rw [hpush]
      refine ⟨by rw [List.length_append]; exact hroom, fun arrived hsub => hsub.append (List.Sublist.refl _), ?_, ?_⟩
      · intro b hb _
        exact List.mem_append_left _ hb
      · intro _ hnot
        exact absurd (List.mem_append_right buffer (List.mem_singleton_self m)) hnot
    · rw [hpush]
      refine ⟨hlen, fun arrived hsub => hsub.trans (List.sublist_append_left arrived [m]), fun b hb _ => hb, ?_⟩
      intro hprimary _
      rw [hkind] at hprimary
      cases hprimary
    · rw [hpush]
      have hsub : (front ++ back).Sublist buffer := by
        rw [hbuffer]
        exact (List.Sublist.refl front).append (List.sublist_cons_self old back)
      refine ⟨?_, fun arrived hbuf => (hsub.trans hbuf).append (List.Sublist.refl _), ?_, ?_⟩
      · rw [hbuffer] at hlen
        simp only [List.length_append, List.length_cons, List.length_nil] at hlen ⊢
        omega
      · intro b hb hprimary
        rw [hbuffer, List.mem_append, List.mem_cons] at hb
        rcases hb with hb | rfl | hb
        · simp [hb]
        · rw [hold] at hprimary
          cases hprimary
        · simp [hb]
      · intro _ hnot
        exact absurd (List.mem_append_right (front ++ back) (List.mem_singleton_self m)) hnot
    · rw [hpush]
      refine ⟨hlen, fun arrived hsub => hsub.trans (List.sublist_append_left arrived [m]), fun b hb _ => hb, ?_⟩
      intro _ _
      exact ⟨Nat.le_antisymm hlen hfull, fun b hb => ⟨hprimary b hb, hnone b hb⟩⟩

/-- A message in the place of another. -/
theorem map_replace {old m : Arrival} (h : (front ++ old :: back).Nodup) :
    (front ++ old :: back).map (fun a => if a = old then m else a) = front ++ m :: back := by
  have hne := List.nodup_middle.mp h
  rw [List.nodup_cons, List.mem_append, not_or] at hne
  have hother {l : List Arrival} (hl : old ∉ l) : l.map (fun a => if a = old then m else a) = l := by
    rw [List.map_congr_left (g := id), List.map_id]
    intro a ha
    refine if_neg ?_
    rintro rfl
    exact hl ha
  rw [List.map_append, List.map_cons, if_pos rfl, hother hne.1.1, hother hne.1.2]

/-- A step that puts a message into the buffer, where it replaces none. -/
theorem keeps_of_pushed (hmsg : c.msg = some msg)
    (hpass : ∀ b ∈ s.buffer, b ∈ buffer ∨ ∃ newly, t.sent = s.sent ++ newly ∧ b ∈ newly)
    (h : Pushed build buffer (msg, s.count) t.buffer) : Keeps build s c t := by
  refine ⟨fun b hb hprimary => ?_, fun msg' hmsg' hprimary hnot => ?_⟩
  · rcases hpass b hb with hb | hb
    · exact .inl (h.keeps b hb hprimary)
    · exact .inr (.inl hb)
  · obtain rfl := Option.some.inj (hmsg.symm.trans hmsg')
    exact h.discards hprimary hnot

theorem inv_of_pushed (hinv : s.Inv build)
    (hsub : buffer.Sublist s.buffer) (harrived : t.arrived = s.arrived ++ [(msg, s.count)]) (hcount : t.count = s.count + 1)
    (h : Pushed build buffer (msg, s.count) t.buffer) : t.Inv build := by
  refine ⟨⟨h.bounded, ?_⟩, ?_, ?_⟩
  · rw [harrived]
    exact h.ordered _ (hsub.trans hinv.tidy.ordered)
  · rw [harrived]
    refine List.Nodup.append hinv.nodup (List.nodup_singleton _) ?_
    intro a ha hnew
    rw [List.mem_singleton.mp hnew] at ha
    exact absurd (hinv.early _ ha) (Nat.lt_irrefl _)
  · rw [harrived, hcount]
    intro a ha
    rcases List.mem_append.mp ha with ha | ha
    · exact Nat.lt_succ_of_lt (hinv.early a ha)
    · rw [List.mem_singleton.mp ha]
      exact Nat.lt_succ_self _

/-- A step that puts a message in the place of another. -/
theorem replaced {old : Arrival}
    (hinv : s.Inv build) (hmsg : c.msg = some msg) (hbuffer : s.buffer = front ++ old :: back)
    (hold : msg.coalesces old.1 = true) (ht : t.buffer = front ++ (msg, s.count) :: back)
    (harrived : t.arrived = s.arrived.map fun a => if a = old then (msg, s.count) else a)
    (hcount : t.count = s.count + 1) : t.Inv build ∧ Keeps build s c t := by
  have hnodup : (front ++ old :: back).Nodup := hbuffer ▸ hinv.nodup.sublist hinv.tidy.ordered
  have hmap : t.buffer = s.buffer.map fun a => if a = old then (msg, s.count) else a := by
    rw [ht, hbuffer, map_replace hnodup]
  have hnew : (msg, s.count) ∉ s.arrived := fun hmem => absurd (hinv.early _ hmem) (Nat.lt_irrefl _)
  refine ⟨⟨⟨?_, ?_⟩, ?_, ?_⟩, ⟨fun b hb _ => ?_, fun msg' hmsg' _ hnot => ?_⟩⟩
  · rw [hmap, List.length_map]
    exact hinv.tidy.bounded
  · rw [hmap, harrived]
    exact hinv.tidy.ordered.map _
  · rw [harrived]
    apply List.Nodup.map_on _ hinv.nodup
    intro a ha b hb heq
    split at heq
    · rename_i haold
      split at heq
      · rename_i hbold
        rw [haold, hbold]
      · rw [← heq] at hb
        exact absurd hb hnew
    · split at heq
      · rw [heq] at ha
        exact absurd ha hnew
      · exact heq
  · rw [harrived, hcount]
    intro a ha
    obtain ⟨a', ha', rfl⟩ := List.mem_map.mp ha
    split
    · exact Nat.lt_succ_self _
    · exact Nat.lt_succ_of_lt (hinv.early a' ha')
  · by_cases hbold : b = old
    · subst hbold
      exact .inr (.inr ⟨msg, hmsg, hold, hmap⟩)
    · left
      rw [hmap, List.mem_map]
      exact ⟨b, hb, if_neg hbold⟩
  · obtain rfl := Option.some.inj (hmsg.symm.trans hmsg')
    rw [ht] at hnot
    exact absurd (List.mem_append_right front List.mem_cons_self) hnot

/-! Steps. -/

theorem arrive_of_none {s : Deferral σ} {m : Arrival} (h : ∀ b ∈ s.buffer, m.1.coalesces b.1 = false) :
    s.arrive m = s.arrived ++ [m] := by
  have hfind : s.buffer.find? (fun buffered => m.1.coalesces buffered.1) = none := by
    rw [List.find?_eq_none]
    intro b hb
    simp [h b hb]
  rw [arrive, hfind]

theorem arrive_of_some {s : Deferral σ} {m old : Arrival}
    (h : s.buffer.find? (fun buffered => m.1.coalesces buffered.1) = some old) :
    s.arrive m = s.arrived.map fun a => if a = old then m else a := by
  rw [arrive, h]

/-- A push, and what is known of the arrivals then. -/
theorem push_step (hinv : s.Inv build) (hmsg : c.msg = some msg)
    (hbuffer : t.buffer = (tryPushBufferedMsg Prod.fst (cooldownBufferMax build) s.buffer (msg, s.count)).2)
    (harrived : t.arrived = s.arrive (msg, s.count)) (hcount : t.count = s.count + 1) :
    t.Inv build ∧ Keeps build s c t := by
  rcases @tryPush_cases _ Prod.fst (cooldownBufferMax build) s.buffer (msg, s.count) with
    ⟨front, old, back, hs, hold, hfind, hpush⟩ | ⟨hnone, -⟩
  · rw [hpush] at hbuffer
    exact replaced hinv hmsg hs hold hbuffer (harrived.trans (arrive_of_some hfind)) hcount
  · have hpushed := @pushed_of_none build _ (msg, s.count) hinv.tidy.bounded hnone
    rw [← hbuffer] at hpushed
    exact ⟨inv_of_pushed hinv (List.Sublist.refl _) (harrived.trans (arrive_of_none hnone)) hcount hpushed,
      keeps_of_pushed hmsg (fun b hb => .inl hb) hpushed⟩

theorem step_spec (hinv : s.Inv build) (h : step build isInCooldown send s c = some t) :
    t.Inv build ∧ Keeps build s c t := by
  cases c with
  | withoutReplay msg =>
    obtain rfl := Option.some.inj h
    exact push_step hinv rfl rfl rfl rfl
  | withReplay msg =>
    obtain ⟨newly, hlog, hsub, hall⟩ := @replayPass_spec _ isInCooldown send s.buffer s.outside s.sent
    have hstep : step build isInCooldown send s (.withReplay msg) =
        some (s.deferred msg (bufferDeferredMsgWithReplay Prod.fst (cooldownBufferMax build)
          (replayPass isInCooldown send) s.buffer (msg, s.count) (s.outside, s.sent)).2) := rfl
    rcases @withReplay_cases _ Prod.fst (cooldownBufferMax build) _ (replayPass isInCooldown send) s.buffer
      (msg, s.count) (s.outside, s.sent) with ⟨hfull, hresult⟩ | hresult
    · have hnone := (full_cases hfull).2.2
      have hpushed := @pushed_of_none build _ (msg, s.count) (hsub.length_le.trans hinv.tidy.bounded)
        fun b hb => hnone b (hsub.subset hb)
      rw [hstep, hresult] at h
      obtain rfl := Option.some.inj h
      refine ⟨inv_of_pushed hinv hsub (arrive_of_none hnone) rfl hpushed, keeps_of_pushed rfl ?_ hpushed⟩
      intro b hb
      exact (hall b hb).imp id fun hb => ⟨newly, hlog, hb⟩
    · rw [hstep, hresult] at h
      obtain rfl := Option.some.inj h
      exact push_step hinv rfl rfl rfl rfl
  | replay =>
    obtain ⟨newly, hlog, hsub, hall⟩ := @replayPass_spec _ isInCooldown send s.buffer s.outside s.sent
    obtain rfl := Option.some.inj h
    refine ⟨⟨⟨hsub.length_le.trans hinv.tidy.bounded, hsub.trans hinv.tidy.ordered⟩, hinv.nodup, hinv.early⟩,
      fun b hb _ => ?_, fun msg hmsg => nomatch hmsg⟩
    exact (hall b hb).imp id fun hb => .inl ⟨newly, hlog, hb⟩

theorem inv_start (s : σ) : (start s).Inv build :=
  ⟨⟨Nat.zero_le _, List.Sublist.refl _⟩, List.nodup_nil, fun _ h => nomatch h⟩

/-- Over any run the buffer is bounded and in the order of arrival, a message that replaced another having the
place of that one, and primaries leave it or are refused for the stated reasons only. -/
theorem deferred_buffer_lossless (build : Build) (isInCooldown : String → σ → Bool × σ)
    (send : OutboundMsg → σ → Bool × σ) (calls : List Call) (s : σ) :
    Always (step build isInCooldown send) (Tidy build) calls (start s) ∧
      Meets (step build isInCooldown send)
        (fun s c => ∀ t, step build isInCooldown send s c = some t → Keeps build s c t) calls (start s) := by
  have hkeep : ∀ s c t, s.Inv build → step build isInCooldown send s c = some t → t.Inv build :=
    fun s c t hinv h => (step_spec hinv h).1
  constructor
  · exact (always_of_invariant hkeep calls (start s) (inv_start s)).mono fun _ hinv => hinv.tidy
  · exact meets_of_invariant hkeep (fun s c hinv t h => (step_spec hinv h).2) calls (start s) (inv_start s)

def reply (content chatId reqId : String) : OutboundMsg :=
  ⟨content, .text content, "telegram", chatId, some reqId, .primary⟩

/-- The second reply to a request takes the place of the first and so stands before a message that came earlier. -/
theorem coalesced_message_stands_before_earlier :
    ¬ Always (step .host (fun _ s => (true, s)) (fun _ s => (true, s)))
      (fun s : Deferral Unit => (s.buffer.map Prod.snd).Pairwise (· < ·))
      [.withoutReplay (reply "a" "1" "r1"), .withoutReplay (reply "b" "2" "r2"), .withoutReplay (reply "c" "1" "r1")]
      (start ()) := by
  intro h
  have hlast : exec (step .host (fun _ s => (true, s)) (fun _ s => (true, s)))
      [.withoutReplay (reply "a" "1" "r1"), .withoutReplay (reply "b" "2" "r2"), .withoutReplay (reply "c" "1" "r1")]
      (start ()) = some ⟨[(reply "c" "1" "r1", 2), (reply "b" "2" "r2", 1)],
        [(reply "c" "1" "r1", 2), (reply "b" "2" "r2", 1)], 3, [], ()⟩ := by decide
  exact absurd (h.last hlast) (by decide)

end Deferral
end Beetle.Channels
