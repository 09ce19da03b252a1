import Mathlib.Data.Int.Init

/-! The error type of the whole crate. -/
namespace Beetle

inductive IoErrorKind where
  | notFound
  | other
  deriving DecidableEq

/-- `std::io::Error`, with what the stores read of it. -/
structure IoError where
  kind : IoErrorKind
  rawOsError : Option Int

/-- A `source` is kept where it is itself an error of this type. -/
inductive Error where
  | nvs (source : Option Error) (stage : String)
  | storage (source : Option Error) (stage : String)
  | config (message stage : String)
  | io (source : IoError) (stage : String)
  | esp (code : Int) (stage : String)
  | http (statusCode : Nat) (stage : String)
  | other (source : Option Error) (stage : String)

namespace Error

def stage : Error → String
  | nvs _ stage => stage
  | storage _ stage => stage
  | config _ stage => stage
  | io _ stage => stage
  | esp _ stage => stage
  | http _ stage => stage
  | other _ stage => stage

def withStage (stage : String) : Error → Error
  | nvs source _ => nvs source stage
  | storage source _ => storage source stage
  | config message _ => config message stage
  | io source _ => io source stage
  | esp code _ => esp code stage
  | http statusCode _ => http statusCode stage
  | other source _ => other source stage

@[simp] theorem stage_withStage (s : String) (e : Error) : (e.withStage s).stage = s := by
  cases e <;> rfl

def isNotFound : Error → Bool
  | io source _ => source.kind = .notFound
  | _ => false

end Error

/-! A result that is there was there at each step. -/

variable {ε α β : Type} {x : Except ε α} {b : β} {f : α → Except ε β}

theorem except_bind_eq_ok : x >>= f = .ok b ↔ ∃ a, x = .ok a ∧ f a = .ok b := by
  cases x with
  | error e => exact ⟨fun h => (nomatch h), fun ⟨_, h, _⟩ => (nomatch h)⟩
  | ok a => exact ⟨fun h => ⟨a, rfl, h⟩, fun ⟨_, heq, h⟩ => Except.ok.inj heq ▸ h⟩

theorem except_bind_ok (h : x >>= f = .ok b) : ∃ a, x = .ok a ∧ f a = .ok b := except_bind_eq_ok.mp h

theorem except_ok_bind (a : α) (f : α → Except ε β) : (Except.ok a >>= f) = f a := rfl

theorem except_map_ok {f : α → β} (h : x.map f = .ok b) : ∃ a, x = .ok a ∧ f a = b := by
  cases x with
  | error e => cases h
  | ok a => exact ⟨a, rfl, by simpa [Except.map] using h⟩

end Beetle

/-! Which errors are worth another try. -/
namespace Beetle.Error

def isTlsAdmission : Error → Bool
  | nvs (some source) stage => stage = "tls_admission" || source.isTlsAdmission
  | storage (some source) stage => stage = "tls_admission" || source.isTlsAdmission
  | other (some source) stage => stage = "tls_admission" || source.isTlsAdmission
  | e => e.stage = "tls_admission"

def connectStages : List String :=
  ["http_post_request", "http_get_request", "http_post_submit", "http_get_submit", "http_client_replace", "http_read"]

def isConnectError : Error → Bool
  | nvs (some source) _ => source.isConnectError
  | storage (some source) _ => source.isConnectError
  | other (some source) stage => stage ∈ connectStages || source.isConnectError
  | other none stage => stage ∈ connectStages
  | io _ stage => stage ∈ connectStages
  | _ => false

def httpStatusCode : Error → Option Nat
  | http statusCode _ => some statusCode
  | _ => none

def isRetryableUpstream (e : Error) : Bool :=
  if e.isTlsAdmission || e.isConnectError then true
  else
    match e.httpStatusCode with
    | some code => code ∈ [408, 409, 425, 429] || (500 ≤ code && code ≤ 599)
    | none => false

end Beetle.Error
