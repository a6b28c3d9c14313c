import RoutineFlow.Expr.Eval
import RoutineFlow.Proofs.Conversions

/-!
Induction on expressions, and the failures of the operations of which their evaluation consists.
-/

namespace RoutineFlow

/-- All faults but those of an evaluator that does not know what it is given. -/
def Fault.Recognized : Fault → Prop
  | .unknownNode _ | .unknownOperator _ => False
  | _ => True

namespace Failure

/-- The failure is a fault of the expression. -/
def Declared : Failure → Prop
  | .fault f => f.Recognized
  | .escaped _ => False

def Recognized : Failure → Prop
  | .fault f => f.Recognized
  | .escaped _ => True

theorem Declared.recognized {failure : Failure} (h : failure.Declared) : failure.Recognized := by
  cases failure with
  | fault f => exact h
  | escaped cause => trivial

end Failure

namespace Expr

open Evaluation (fault escape report)
open Results

@[elab_as_elim]
theorem induct {P : Expr → Prop} (numeral : ∀ n, P (.numeral n)) (text : ∀ s, P (.text s))
    (boolean : ∀ b, P (.boolean b)) (null : P .null) (name : ∀ word, P (.name word))
    (member : ∀ target word, P target → P (.member target word))
    (index : ∀ target place, P target → P place → P (.index target place))
    (call : ∀ word arguments, (∀ e ∈ arguments, P e) → P (.call word arguments))
    (unary : ∀ op operand, P operand → P (.unary op operand))
    (binary : ∀ op left right, P left → P right → P (.binary op left right))
    (logical : ∀ op left right, P left → P right → P (.logical op left right))
    (conditional : ∀ test whenTrue whenFalse, P test → P whenTrue → P whenFalse →
      P (.conditional test whenTrue whenFalse))
    (list : ∀ items, (∀ e ∈ items, P e) → P (.list items))
    (map : ∀ entries : List (String × Expr), (∀ entry ∈ entries, P entry.2) → P (.map entries)) (e : Expr) : P e :=
  @Expr.rec P (fun items => ∀ e ∈ items, P e) (fun entries => ∀ entry ∈ entries, P entry.2) (fun entry => P entry.2)
    numeral text boolean null name member index call unary binary logical conditional list map
    (by simp) (fun _ _ hfirst hrest => List.forall_mem_cons.mpr ⟨hfirst, hrest⟩) (by simp)
    (fun _ _ hfirst hrest => List.forall_mem_cons.mpr ⟨hfirst, hrest⟩) (fun _ _ h => h) e

theorem evalItems_eq_mapM (bindings : Environment) (items : List Expr) :
    evalItems bindings items = items.mapM (eval bindings) := by
  induction items with
  | nil => rfl
  | cons e items ih => rw [evalItems, ih, List.mapM_cons]

theorem evalEntries_eq_mapM (bindings : Environment) (entries : List (String × Expr)) :
    evalEntries bindings entries = entries.mapM fun (key, e) => do return (.text key, ← eval bindings e) := by
  induction entries with
  | nil => rfl
  | cons entry entries ih =>
    rw [evalEntries, ih, List.mapM_cons]
    simp only [bind_assoc, pure_bind]

section Failures

variable {bindings : Environment} {v left right target place : Value}

theorem failsIn_fault {α : Type} {f : Fault} (h : f.Recognized) : FailsIn Failure.Declared (fault f : Evaluation α) :=
  .error h

theorem failsIn_report {α : Type} (toFault : Cause → Fault) {r : Except Cause α}
    (hfault : ∀ cause, (toFault cause).Recognized) (h : FailsIn Cause.Reported r) :
    FailsIn Failure.Declared (report toFault r) := by
  intro failure hreport
  obtain ⟨cause, hr, rfl⟩ := mapError_eq_error.mp hreport
  rw [if_neg (h cause hr)]
  exact hfault cause

theorem failsIn_finite (n : Number) : FailsIn Failure.Declared (finite n) := by
  unfold finite
  split
  · exact .ok _
  · split
    · exact .ok _
    · exact failsIn_fault trivial
  · exact failsIn_fault trivial

theorem failsIn_lookUp (word : String) : FailsIn Failure.Declared (lookUp bindings word) := by
  unfold lookUp
  split
  · exact .ok _
  · exact failsIn_fault trivial

theorem failsIn_memberOf (word : String) : FailsIn Failure.Declared (memberOf target word) := by
  unfold memberOf
  split
  · exact failsIn_fault trivial
  · exact .ok _
  · split
    · exact .ok _
    · exact failsIn_fault trivial
  · split
    · exact .ok _
    · exact failsIn_fault trivial
  · exact failsIn_fault trivial

theorem failsIn_applyUnary (op : UnaryOp) : FailsIn Failure.Declared (applyUnary op v) := by
  have hsigned (symbol : String) (negative : Bool) : FailsIn Failure.Declared (signed symbol negative v) :=
    (failsIn_report (.unaryFailed symbol) (fun _ => trivial) v.failsIn_toNumber).bind fun n => .ok _
  cases op with
  | not => exact .ok _
  | negative => exact hsigned _ true
  | positive => exact hsigned _ false

theorem failsIn_arithmetic (r : Option Number) : FailsIn Failure.Declared (arithmetic r) := by
  cases r with
  | none => exact failsIn_fault trivial
  | some n => exact .ok _

theorem failsIn_onNumbers {f : Number → Number → Evaluation Value} (op : BinaryOp)
    (hf : ∀ m n, FailsIn Failure.Declared (f m n)) : FailsIn Failure.Declared (onNumbers op f left right) := by
  unfold onNumbers
  split
  · exact hf _ _
  · exact failsIn_fault trivial

theorem failsIn_unlessZero (f : Number → Number → Option Number) (m n : Number) :
    FailsIn Failure.Declared (unlessZero f m n) := by
  unfold unlessZero
  split
  · exact failsIn_fault trivial
  · exact failsIn_arithmetic _

theorem failsIn_unlessNull {P : Failure → Prop} {symbol : String} {r : Evaluation Value}
    (hP : ∀ failure, failure.Declared → P failure)
    (h : ¬ (left.kind = .null ∨ right.kind = .null) → FailsIn P r) :
    FailsIn P (if left.kind = .null ∨ right.kind = .null then fault (.nullOperand symbol) else r) := by
  split
  · exact .error (hP _ trivial)
  · exact h ‹_›

theorem failsIn_applyBinary {P : Failure → Prop} (op : BinaryOp) (hP : ∀ failure, failure.Declared → P failure)
    (hsum : op = .add → ¬ (left.kind = .null ∨ right.kind = .null) → FailsIn P (sum left right)) :
    FailsIn P (applyBinary op left right) := by
  cases op with
  | equal | notEqual | strictEqual | strictNotEqual => exact .ok _
  | add => exact failsIn_unlessNull hP (hsum rfl)
  | subtract | multiply =>
    exact failsIn_unlessNull hP fun _ => (failsIn_onNumbers _ fun _ _ => failsIn_arithmetic _).mono hP
  | divide | modulo => exact failsIn_unlessNull hP fun _ => (failsIn_onNumbers _ (failsIn_unlessZero _)).mono hP
  | order c =>
    have hordered := failsIn_report (.binaryFailed c.symbol) (fun _ => trivial) (Value.failsIn_ordered c left right)
    exact failsIn_unlessNull hP fun _ => (hordered.bind fun b => .ok (Value.bool b)).mono hP

end Failures

end Expr

end RoutineFlow
