import McLoving.Domain.Primitives
import McLoving.Lib.Except
import McLoving.Lib.OrderedMap
import Mathlib.Data.String.Basic

/-!
# Parameter expressions

The small expression language of native pipelines: its limits, and its evaluation against a context
of typed parameters in which every value carries whether it is tainted by a secret.

Evaluation never skips an operand, so a value that is not tainted was computed from untainted
parameters alone: it is the same in every context that agrees on those.
-/

namespace McLoving.Pipeline

open List Except

inductive ParameterValue where
  | bool (value : Bool)
  | integer (value : Int64)
  | string (value : String)
  deriving DecidableEq

/-- `ParameterValue::type_name`. -/
def ParameterValue.typeName : ParameterValue → String
  | .bool _ => "boolean"
  | .integer _ => "integer"
  | .string _ => "string"

/-- The operators of two operands. -/
inductive BinaryOperator where
  | equal | notEqual | and | or | add
  deriving DecidableEq

/-- `Expression`; the five constructors of two operands are one, with the operator. -/
inductive Expression where
  | literal (value : ParameterValue)
  | parameter (name : String)
  | not (value : Expression)
  | binary (operator : BinaryOperator) (left right : Expression)
  deriving DecidableEq

structure ExpressionLimits where
  maxNodes : ℕ
  maxDepth : ℕ
  maxStringBytes : ℕ
  maxOperations : ℕ

/-- `ExpressionLimits::default`. -/
def ExpressionLimits.standard : ExpressionLimits where
  maxNodes := 128
  maxDepth := 16
  maxStringBytes := 4 * 1024
  maxOperations := 128

inductive ExpressionErrorCode where
  | sourceLimit | syntaxError | unknownContext | nodeLimit | depthLimit | stringLimit
  | operationLimit | missingParameter | typeMismatch | integerOverflow
  deriving DecidableEq

structure ExpressionError where
  code : ExpressionErrorCode
  offset : ℕ
  message : String
  deriving DecidableEq

/-- `EvaluatedValue`: a value and whether a secret taints it. -/
structure EvaluatedValue where
  value : ParameterValue
  secret : Bool
  deriving DecidableEq

/-- A text between quotation marks. -/
def quoted (text : String) : String :=
  "\"" ++ text ++ "\""

/-! ## Limits -/

section Limits

variable (limits : ExpressionLimits)

/-- The names an expression refers to. -/
def Expression.references : Expression → List String
  | .literal _ => []
  | .parameter name => [name]
  | .not value => value.references
  | .binary _ left right => left.references ++ right.references

def depthError (offset : ℕ) : ExpressionError :=
  ⟨.depthLimit, offset, "expression depth exceeds " ++ toString limits.maxDepth⟩

def nodeError (offset : ℕ) : ExpressionError :=
  ⟨.nodeLimit, offset, "expression node count exceeds " ++ toString limits.maxNodes⟩

def operationError (offset : ℕ) : ExpressionError :=
  ⟨.operationLimit, offset, "expression operation count exceeds " ++ toString limits.maxOperations⟩

def stringError (offset : ℕ) : ExpressionError :=
  ⟨.stringLimit, offset, "expression string exceeds " ++ toString limits.maxStringBytes ++ " bytes"⟩

/-- The names a parameter may have: letters, digits, underscore and hyphen. -/
def isParameterIdentifier (name : String) : Bool :=
  !name.isEmpty && name.toList.all fun c => isAsciiAlphanumeric c || c == '_' || c == '-'

def validateParameterName (offset : ℕ) (name : String) : Except ExpressionError Unit :=
  if isParameterIdentifier name then .ok ()
  else .error ⟨.syntaxError, offset,
    "parameter name must contain only ASCII letters, digits, underscore, or hyphen"⟩

/-- Whether a value is no string longer than the limit. -/
def ParameterValue.fits (maximum : ℕ) : ParameterValue → Bool
  | .string value => value.utf8ByteSize ≤ maximum
  | _ => true

/-- The checks of `walk` on the way into a node, which count the node. -/
def enterNode (depth nodes : ℕ) : Except ExpressionError ℕ :=
  if depth > limits.maxDepth then .error (depthError limits 0)
  else if nodes + 1 > limits.maxNodes then .error (nodeError limits 0)
  else .ok (nodes + 1)

/-- The check of `walk` on the way out of a node. -/
def leaveNode (counts : ℕ × ℕ) : Except ExpressionError (ℕ × ℕ) :=
  if counts.2 > limits.maxOperations then .error (operationError limits 0) else .ok counts

/-- The inner `walk` of `validate_expression`, with the counts of nodes and operations. -/
def walk : Expression → ℕ → ℕ → ℕ → Except ExpressionError (ℕ × ℕ)
  | .literal value, depth, nodes, operations => do
    let nodes ← enterNode limits depth nodes
    if value.fits limits.maxStringBytes then leaveNode limits (nodes, operations)
    else .error (stringError limits 0)
  | .parameter name, depth, nodes, operations => do
    let nodes ← enterNode limits depth nodes
    validateParameterName 0 name
    leaveNode limits (nodes, operations)
  | .not value, depth, nodes, operations => do
    let nodes ← enterNode limits depth nodes
    let counts ← walk value (depth + 1) nodes (operations + 1)
    leaveNode limits counts
  | .binary _ left right, depth, nodes, operations => do
    let nodes ← enterNode limits depth nodes
    let counts ← walk left (depth + 1) nodes (operations + 1)
    let counts ← walk right (depth + 1) counts.1 counts.2
    leaveNode limits counts

def validateExpression (expression : Expression) : Except ExpressionError Unit := do
  let _ ← walk limits expression 0 0 0

variable {limits}

end Limits

/-! ## Evaluation -/

section Evaluation

variable (parameters : OrderedMap String EvaluatedValue) (limits : ExpressionLimits)

def typeMismatch (operator expected actual : String) : ExpressionError :=
  ⟨.typeMismatch, 0, operator ++ " expected " ++ expected ++ ", found " ++ actual⟩

/-- `i64::checked_add`. -/
def checkedAdd (left right : Int64) : Option Int64 :=
  let sum := left.toInt + right.toInt
  if -2 ^ 63 ≤ sum ∧ sum < 2 ^ 63 then some (Int64.ofInt sum) else none

/-- The value of an operator on two operands. -/
def combineValues (operator : BinaryOperator) (left right : ParameterValue) :
    Except ExpressionError ParameterValue :=
  match operator with
  | .equal | .notEqual =>
    if left.typeName ≠ right.typeName then
      .error (typeMismatch "equality" left.typeName right.typeName)
    else .ok (.bool (decide (left = right) == (operator == .equal)))
  | .and | .or =>
    match left, right with
    | .bool l, .bool r => .ok (.bool (if operator = .and then l && r else l || r))
    | .bool _, other | other, _ =>
      .error (typeMismatch "boolean operator" "boolean" other.typeName)
  | .add =>
    match left, right with
    | .integer l, .integer r =>
      match checkedAdd l r with
      | some sum => .ok (.integer sum)
      | none => .error ⟨.integerOverflow, 0, "integer addition overflowed signed 64-bit range"⟩
    | .string l, .string r =>
      if l.utf8ByteSize + r.utf8ByteSize > limits.maxStringBytes then
        .error (stringError limits 0)
      else .ok (.string (l ++ r))
    | _, _ => .error (typeMismatch "+" left.typeName right.typeName)

/-- `Evaluator::operation`, which counts one more operator. -/
def countOperation (operations : ℕ) : Except ExpressionError ℕ :=
  if operations + 1 > limits.maxOperations then .error (operationError limits 0)
  else .ok (operations + 1)

/-- `Evaluator::evaluate`: the value and the number of operators met so far. -/
def evaluate (expression : Expression) (depth operations : ℕ) :
    Except ExpressionError (EvaluatedValue × ℕ) :=
  if depth > limits.maxDepth then .error (depthError limits 0)
  else
    match expression with
    | .literal value => .ok (⟨value, false⟩, operations)
    | .parameter name =>
      match parameters.get? name with
      | none => .error ⟨.missingParameter, 0, "parameter " ++ quoted name ++ " is not defined"⟩
      | some value =>
        if value.value.fits limits.maxStringBytes then .ok (value, operations)
        else .error (stringError limits 0)
    | .not value => do
      let operations ← countOperation limits operations
      let (value, operations) ← evaluate value (depth + 1) operations
      match value.value with
      | .bool bool => .ok (⟨.bool !bool, value.secret⟩, operations)
      | other => .error (typeMismatch "!" "boolean" other.typeName)
    | .binary operator left right => do
      let operations ← countOperation limits operations
      let (left, operations) ← evaluate left (depth + 1) operations
      let (right, operations) ← evaluate right (depth + 1) operations
      let value ← combineValues limits operator left.value right.value
      .ok (⟨value, left.secret || right.secret⟩, operations)

def evaluateExpression (expression : Expression) : Except ExpressionError EvaluatedValue := do
  validateExpression limits expression
  let (value, _) ← evaluate parameters limits expression 0 0
  .ok value

/-! ## Untainted results -/

variable {limits}

/-- Two contexts that agree on the untainted parameters. -/
def PublicAgreement (Γ Δ : OrderedMap String EvaluatedValue) : Prop :=
  ∀ name value, value.secret = false → (Γ.get? name = some value ↔ Δ.get? name = some value)

variable {Γ Δ : OrderedMap String EvaluatedValue} {expression : Expression}
variable {result : EvaluatedValue × ℕ}

/-- A value depends on the parameters that the expression refers to. -/
theorem evaluate_congr {depth operations : ℕ}
    (hsame : ∀ name ∈ expression.references, Γ.get? name = Δ.get? name) :
    evaluate Γ limits expression depth operations =
      evaluate Δ limits expression depth operations := by
  induction expression generalizing depth operations with
  | literal => simp only [evaluate]
  | parameter name => simp only [evaluate, hsame name (mem_singleton_self name)]
  | not _ ih => simp only [evaluate, ih hsame]
  | binary _ _ _ ihl ihr =>
    simp only [evaluate, ihl fun name hmem => hsame name (mem_append_left _ hmem),
      ihr fun name hmem => hsame name (mem_append_right _ hmem)]

/-! ## Taint -/

/-- A parameter of the context that the expression refers to is secret. -/
def Expression.Tainted (expression : Expression) (Γ : OrderedMap String EvaluatedValue) : Prop :=
  ∃ name ∈ expression.references, ∃ value, Γ.get? name = some value ∧ value.secret = true

/-- A result is secret exactly if a parameter below is: every operand is evaluated, and so every
parameter is defined. -/
theorem evaluate_secret {depth operations : ℕ}
    (heval : evaluate Γ limits expression depth operations = .ok result) :
    (result.1.secret = true ↔ expression.Tainted Γ) ∧
      ∀ name ∈ expression.references, ∃ value, Γ.get? name = some value := by
  induction expression generalizing depth operations result with
  | literal =>
    rw [evaluate] at heval
    split_ifs at heval
    cases heval
    simp [Expression.Tainted, Expression.references]
  | parameter name =>
    rw [evaluate] at heval
    split_ifs at heval
    cases hget : Γ.get? name with
    | none =>
      rw [hget] at heval
      cases heval
    | some =>
      simp only [hget] at heval
      split_ifs at heval
      cases heval
      simp [Expression.Tainted, Expression.references, hget]
  | not _ ih =>
    rw [evaluate] at heval
    split_ifs at heval
    obtain ⟨count, -, heval⟩ := bind_eq_ok.mp heval
    obtain ⟨⟨operand, later⟩, hoperand, heval⟩ := bind_eq_ok.mp heval
    obtain ⟨hsecret, hdefined⟩ := ih hoperand
    refine ⟨?_, hdefined⟩
    rw [Expression.Tainted, Expression.references, ← Expression.Tainted, ← hsecret]
    cases hvalue : operand.value with
    | bool =>
      simp only [hvalue] at heval
      rw [← Except.ok.inj heval]
    | integer => simp only [hvalue, reduceCtorEq] at heval
    | string => simp only [hvalue, reduceCtorEq] at heval
  | binary operator left right ihl ihr =>
    rw [evaluate] at heval
    split_ifs at heval
    obtain ⟨count, -, heval⟩ := bind_eq_ok.mp heval
    obtain ⟨⟨first, later⟩, hfirst, heval⟩ := bind_eq_ok.mp heval
    obtain ⟨⟨second, last⟩, hsecond, heval⟩ := bind_eq_ok.mp heval
    obtain ⟨value, -, heval⟩ := bind_eq_ok.mp heval
    obtain ⟨hleft, hdefined⟩ := ihl hfirst
    obtain ⟨hright, hdefined'⟩ := ihr hsecond
    have hboth : (Expression.binary operator left right).Tainted Γ ↔
        left.Tainted Γ ∨ right.Tainted Γ := by
      simp only [Expression.Tainted, Expression.references, mem_append, or_and_right, exists_or]
    refine ⟨?_, fun name hmem => (mem_append.mp hmem).elim (hdefined name) (hdefined' name)⟩
    rw [hboth, ← hleft, ← hright, ← Except.ok.inj heval, Bool.or_eq_true]

/-- An untainted result of `evaluate_expression` is the same in every context that agrees on the
untainted parameters. -/
theorem evaluateExpression_public (hagree : PublicAgreement Γ Δ) {result : EvaluatedValue}
    (heval : evaluateExpression Γ limits expression = .ok result)
    (hpublic : result.secret = false) : evaluateExpression Δ limits expression = .ok result := by
  obtain ⟨hvalid, hrest⟩ := unit_bind_eq_ok.mp heval
  obtain ⟨⟨value, operations⟩, hvalue, hresult⟩ := bind_eq_ok.mp hrest
  obtain rfl := Except.ok.inj hresult
  obtain ⟨hsecret, hdefined⟩ := evaluate_secret hvalue
  have hsame (name : String) (hname : name ∈ expression.references) :
      Γ.get? name = Δ.get? name := by
    obtain ⟨found, hget⟩ := hdefined name hname
    have huntainted : found.secret = false := by
      by_contra htrue
      have htainted := hsecret.mpr ⟨name, hname, found, hget, Bool.eq_true_of_not_eq_false htrue⟩
      exact Bool.false_ne_true (hpublic.symm.trans htainted)
    rw [hget, (hagree name found huntainted).mp hget]
  rw [evaluate_congr hsame] at hvalue
  exact unit_bind_eq_ok.mpr
    ⟨hvalid, bind_eq_ok.mpr ⟨(value, operations), hvalue, rfl⟩⟩

/-- Taint is sound and complete.  A result of `evaluate_expression` is secret exactly if a parameter
that occurs in the expression is secret in the context.  And a result that is not secret is the same
in every context with the same public parameters. -/
theorem taint_sound_and_complete (limits : ExpressionLimits) (expression : Expression)
    (Γ : OrderedMap String EvaluatedValue) (result : EvaluatedValue)
    (heval : evaluateExpression Γ limits expression = .ok result) :
    (result.secret = true ↔ ∃ name ∈ expression.references, ∃ value,
      Γ.get? name = some value ∧ value.secret = true) ∧
    ∀ Δ result', PublicAgreement Γ Δ → evaluateExpression Δ limits expression = .ok result' →
      result.secret = false → result'.value = result.value := by
  constructor
  · obtain ⟨-, hrest⟩ := unit_bind_eq_ok.mp heval
    obtain ⟨⟨value, operations⟩, hvalue, hresult⟩ := bind_eq_ok.mp hrest
    cases hresult
    exact (evaluate_secret hvalue).1
  · intro Δ result' hagree heval' hpublic
    have hsame := evaluateExpression_public hagree heval hpublic
    rw [Except.ok.inj (heval'.symm.trans hsame)]

/-- A disjunction of a public parameter and a secret one is secret. -/
theorem taint_of_two_parameters :
    let Γ : OrderedMap String EvaluatedValue :=
      .ofList [("key", ⟨.bool true, true⟩), ("flag", ⟨.bool false, false⟩)]
    let both : Expression := .binary .or (.parameter "flag") (.parameter "key")
    evaluateExpression Γ .standard both = .ok ⟨.bool true, true⟩ ∧
      ∃ name ∈ both.references, ∃ value, Γ.get? name = some value ∧ value.secret = true := by
  intro Γ both
  have heval : evaluateExpression Γ .standard both = .ok ⟨.bool true, true⟩ := by decide +kernel
  exact ⟨heval, (taint_sound_and_complete .standard both Γ _ heval).1.mp rfl⟩

end Evaluation

end McLoving.Pipeline
