import OpenApiClient.Failure

/-! Log records, and computations that may fail and that write records while they run. The records of a
computation are those of its parts, one after the other, whether it fails or not. -/

namespace OpenApiClient

inductive Severity where
  | debug
  | info
  | warning
  | error
  | critical
  deriving DecidableEq, Repr, Inhabited

namespace Severity

def name : Severity → String
  | .debug => "DEBUG"
  | .info => "INFO"
  | .warning => "WARNING"
  | .error => "ERROR"
  | .critical => "CRITICAL"

def grade : Severity → Nat
  | .debug => 10
  | .info => 20
  | .warning => 30
  | .error => 40
  | .critical => 50

end Severity

structure LogRecord where
  severity : Severity
  source : String
  message : String
  deriving DecidableEq, Repr, Inhabited

def LogRecord.line (record : LogRecord) : String :=
  record.severity.name ++ " " ++ record.source ++ ": " ++ record.message

structure Traced (α : Type) where
  result : Except Failure α
  log : List LogRecord

namespace Traced

variable {α β : Type}

def fail (failure : Failure) : Traced α := ⟨.error failure, []⟩

def write (severity : Severity) (source message : String) : Traced Unit :=
  ⟨.ok (), [⟨severity, source, message⟩]⟩

def ofResult (result : Except Failure α) : Traced α := ⟨result, []⟩

protected def bind (computation : Traced α) (next : α → Traced β) : Traced β :=
  match computation.result with
  | .ok value =>
      let rest := next value
      ⟨rest.result, computation.log ++ rest.log⟩
  | .error failure => ⟨.error failure, computation.log⟩

instance : Monad Traced where
  pure value := ⟨.ok value, []⟩
  bind := Traced.bind

instance : MonadLift (Except Failure) Traced := ⟨ofResult⟩

instance : MonadLift (Except Malformed) Traced where
  monadLift outcome := ofResult (outcome.mapError .malformed)

def mapFailure (change : Failure → Failure) (computation : Traced α) : Traced α :=
  ⟨computation.result.mapError change, computation.log⟩

theorem result_bind (computation : Traced α) (next : α → Traced β) :
    (computation >>= next).result = computation.result >>= fun value => (next value).result := by
  show (Traced.bind computation next).result = _
  unfold Traced.bind
  cases computation.result <;> rfl

theorem result_pure (value : α) : (pure value : Traced α).result = .ok value := rfl

theorem bind_pure_id (computation : Traced α) : id <$> computation = computation := by
  show Traced.bind computation _ = computation
  obtain ⟨result, log⟩ := computation
  cases result <;> simp [Traced.bind]

theorem pure_bind (value : α) (next : α → Traced β) : pure value >>= next = next value := by
  show Traced.bind ⟨.ok value, []⟩ next = next value
  simp [Traced.bind]

theorem bind_assoc {γ : Type} (computation : Traced α) (next : α → Traced β) (last : β → Traced γ) :
    computation >>= next >>= last = computation >>= fun value => next value >>= last := by
  show Traced.bind (Traced.bind computation next) last =
    Traced.bind computation fun value => Traced.bind (next value) last
  obtain ⟨result, log⟩ := computation
  cases result with
  | error failure => rfl
  | ok value =>
      simp only [Traced.bind]
      cases (next value).result <;> simp

instance : LawfulMonad Traced := LawfulMonad.mk' Traced bind_pure_id pure_bind bind_assoc

end Traced
end OpenApiClient
