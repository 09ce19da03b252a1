import Beetle.Channels.Telegram.Send

/-! What is left of an error's classification when it gets another stage. -/
namespace Beetle.Error

def nestedBeetleError : Error → Option Error
  | nvs source _ => source
  | storage source _ => source
  | other source _ => source
  | _ => none

/-- The variants in which `is_connect_error` reads the stage. -/
def readsConnectStage : Error → Bool
  | io _ _ => true
  | other _ _ => true
  | _ => false

variable (e : Error)

theorem isTlsAdmission_eq :
    e.isTlsAdmission = (decide (e.stage = "tls_admission") || e.nestedBeetleError.any isTlsAdmission) := by
  cases e with
  | nvs source s | storage source s | other source s =>
    cases source with
    | none => exact (Bool.or_false _).symm
    | some source => rw [isTlsAdmission]; rfl
  | config | io | esp | http => exact (Bool.or_false _).symm

theorem isConnectError_eq : e.isConnectError =
    (e.readsConnectStage && decide (e.stage ∈ connectStages) || e.nestedBeetleError.any isConnectError) := by
  cases e with
  | nvs source s | storage source s =>
    cases source with
    | none => rfl
    | some source => rw [isConnectError]; rfl
  | other source s =>
    cases source with
    | none => exact (Bool.or_false _).symm
    | some source => rw [isConnectError]; rfl
  | io => exact (Bool.or_false _).symm
  | config | esp | http => rfl

section
variable (s : String)
include s

@[simp] theorem nestedBeetleError_withStage (e : Error) : (e.withStage s).nestedBeetleError = e.nestedBeetleError := by
  cases e <;> rfl

@[simp] theorem readsConnectStage_withStage (e : Error) : (e.withStage s).readsConnectStage = e.readsConnectStage := by
  cases e <;> rfl

@[simp] theorem httpStatusCode_withStage (e : Error) : (e.withStage s).httpStatusCode = e.httpStatusCode := by
  cases e <;> rfl

/-- The wrapper of the channels keeps the variant of an HTTP error only. -/
theorem mapStage_cases :
    e.httpStatusCode ≠ none ∧ Channels.Telegram.mapStage e s = e.withStage s ∨
      e.httpStatusCode = none ∧ Channels.Telegram.mapStage e s = .other (some e) s := by
  cases e with
  | http code s' => exact Or.inl ⟨nofun, rfl⟩
  | _ => exact Or.inr ⟨rfl, rfl⟩

@[simp] theorem httpStatusCode_mapStage : (Channels.Telegram.mapStage e s).httpStatusCode = e.httpStatusCode := by
  cases e <;> rfl

end

/-- What the callers ask of an error. -/
structure SameClass (e restaged : Error) : Prop where
  retryable : restaged.isRetryableUpstream = e.isRetryableUpstream
  tls : restaged.isTlsAdmission = e.isTlsAdmission
  connect : restaged.isConnectError = e.isConnectError
  status : restaged.httpStatusCode = e.httpStatusCode

theorem sameClass_iff {e restaged : Error} (hstatus : restaged.httpStatusCode = e.httpStatusCode) :
    SameClass e restaged ↔
      restaged.isTlsAdmission = e.isTlsAdmission ∧ restaged.isConnectError = e.isConnectError := by
  constructor
  · exact fun h => ⟨h.tls, h.connect⟩
  · rintro ⟨htls, hconnect⟩
    exact ⟨by rw [isRetryableUpstream, isRetryableUpstream, htls, hconnect, hstatus], htls, hconnect, hstatus⟩

/-- The old and the new stage say the same about admission, or what is nested says it already. -/
def TlsKept (e : Error) (s : String) : Prop :=
  e.nestedBeetleError.any isTlsAdmission = true ∨ (s = "tls_admission" ↔ e.stage = "tls_admission")

/-- The wrapper reads the new stage also where the error itself does not read its own. -/
def ConnectKept (e : Error) (s : String) : Prop :=
  e.nestedBeetleError.any isConnectError = true ∨ e.httpStatusCode ≠ none ∨
    (s ∈ connectStages ↔ e.readsConnectStage = true ∧ e.stage ∈ connectStages)

section
variable (s : String)
include s

theorem isTlsAdmission_withStage_iff : (e.withStage s).isTlsAdmission = e.isTlsAdmission ↔ e.TlsKept s := by
  rw [isTlsAdmission_eq, isTlsAdmission_eq, stage_withStage, nestedBeetleError_withStage, TlsKept]
  cases e.nestedBeetleError.any isTlsAdmission with
  | true => simp
  | false => simp

theorem isConnectError_withStage_iff :
    (e.withStage s).isConnectError = e.isConnectError ↔
      e.nestedBeetleError.any isConnectError = true ∨ e.readsConnectStage = false ∨
        (s ∈ connectStages ↔ e.stage ∈ connectStages) := by
  rw [isConnectError_eq, isConnectError_eq, stage_withStage, nestedBeetleError_withStage,
    readsConnectStage_withStage]
  cases e.nestedBeetleError.any isConnectError with
  | true => simp
  | false => cases e.readsConnectStage <;> simp

theorem isTlsAdmission_wrap_iff :
    (other (some e) s).isTlsAdmission = e.isTlsAdmission ↔ (s = "tls_admission" → e.isTlsAdmission = true) := by
  have heq : (other (some e) s).isTlsAdmission = (decide (s = "tls_admission") || e.isTlsAdmission) :=
    isTlsAdmission_eq _
  rw [heq]
  cases e.isTlsAdmission <;> simp

theorem isConnectError_wrap_iff :
    (other (some e) s).isConnectError = e.isConnectError ↔ (s ∈ connectStages → e.isConnectError = true) := by
  have heq : (other (some e) s).isConnectError = (decide (s ∈ connectStages) || e.isConnectError) :=
    isConnectError_eq _
  rw [heq]
  cases e.isConnectError <;> simp

theorem tls_kept_iff :
    (e.withStage s).isTlsAdmission = e.isTlsAdmission ∧
      (Channels.Telegram.mapStage e s).isTlsAdmission = e.isTlsAdmission ↔ e.TlsKept s := by
  rw [isTlsAdmission_withStage_iff]
  refine ⟨And.left, fun h => ⟨h, ?_⟩⟩
  rcases mapStage_cases e s with ⟨-, hmap⟩ | ⟨-, hmap⟩
  · rw [hmap, isTlsAdmission_withStage_iff]
    exact h
  · rw [hmap, isTlsAdmission_wrap_iff, isTlsAdmission_eq]
    intro hs
    rcases h with hnested | hstage
    · simp [hnested]
    · simp [hstage.mp hs]

theorem connect_kept_iff :
    (e.withStage s).isConnectError = e.isConnectError ∧
      (Channels.Telegram.mapStage e s).isConnectError = e.isConnectError ↔ e.ConnectKept s := by
  rw [isConnectError_withStage_iff, ConnectKept]
  rcases mapStage_cases e s with ⟨hhttp, hmap⟩ | ⟨hother, hmap⟩
  · have hreads : e.readsConnectStage = false := by
      cases e with
      | http code s' => rfl
      | _ => exact absurd rfl hhttp
    rw [hmap, isConnectError_withStage_iff]
    simp [hreads, hhttp]
  · rw [hmap, isConnectError_wrap_iff, isConnectError_eq e]
    cases e.nestedBeetleError.any isConnectError with
    | true => simp
    | false =>
      cases e.readsConnectStage with
      | false => simp [hother]
      | true =>
        simp only [hother, Bool.true_and, Bool.or_false, decide_eq_true_eq, true_and, ne_eq, not_true_eq_false,
          false_or, Bool.false_eq_true, Bool.true_eq_false]
        exact ⟨And.left, fun h => ⟨h, h.mp⟩⟩

end

/-- Restaging keeps the class of an error exactly where the stage it overwrites and the new one say the same,
or where what is nested says it already. -/
theorem restaged_same_class_iff (e : Error) (s : String) :
    SameClass e (e.withStage s) ∧ SameClass e (Channels.Telegram.mapStage e s) ↔ e.TlsKept s ∧ e.ConnectKept s := by
  rw [sameClass_iff (httpStatusCode_withStage s e), sameClass_iff (httpStatusCode_mapStage e s), ← tls_kept_iff,
    ← connect_kept_iff]
  tauto

/-- The admission error of the agent's call of the model loses its stage, and with it the retry. -/
theorem tls_admission_restaged_not_retryable :
    ¬ ∀ (e : Error) (s : String), SameClass e (e.withStage s) ∧ SameClass e (Channels.Telegram.mapStage e s) := by
  intro h
  have hretry := (h (.config "largest block too small" "tls_admission") "agent_chat").1.retryable
  revert hretry
  decide

end Beetle.Error
