import RoutineFlow.Expr.Code
import RoutineFlow.Json.Reader
import RoutineFlow.Proofs.Conversions
import RoutineFlow.Proofs.Evaluation

/-!
Which evaluations end with a cause that is not reported as a fault of the expression. They leave the range of integers
or doubles in a call, or need the text of an integer of too many digits outside one.
-/

namespace RoutineFlow

open Results

namespace Builtin

variable {f : Builtin} {args : List Value} {cause : Cause}

/-- The calls that leave the range of integers or doubles. -/
inductive OutOfRange : Builtin → List Value → Cause → Prop
  | int {v : Value} {n : Number} (hv : v.toNumber = .ok n) (h : n.Infinite) : OutOfRange .int [v] .integerOfInfinity
  | round {v : Value} {n : Number} {cause : Cause} (hv : v.toNumber = .ok n) (h : n.Unroundable (.int 0) cause) :
    OutOfRange .round [v] cause
  | roundTo {v places : Value} {n digits : Number} {cause : Cause} (hv : v.toNumber = .ok n)
      (hplaces : places.toNumber = .ok digits) (h : n.Unroundable digits cause) : OutOfRange .round [v, places] cause

theorem failsIn_text (v : Value) : FailsIn Cause.Reported (Value.textChars v) := by
  intro cause h
  obtain rfl := Value.failsIn_textChars v cause h
  exact nofun

theorem failsIn_toKey (v : Value) : FailsIn Cause.Reported v.toKey := by
  unfold Value.toKey
  split
  all_goals first | exact .ok _ | exact .error nofun

theorem failsIn_checkCount (s : Signature) (given : Nat) : FailsIn Cause.Reported (checkCount s given) := by
  unfold checkCount
  split
  · exact .error nofun
  · split
    · exact .error nofun
    · exact .ok _

theorem failsIn_lengthOf (v : Value) : FailsIn Cause.Reported (lengthOf v) := by
  cases v <;> first | exact .ok _ | exact .error nofun

theorem failsIn_choose (c : Comparison) (values : List Value) (best : Value) :
    FailsIn Cause.Reported (choose c best values) := by
  induction values generalizing best with
  | nil => exact .ok _
  | cons v values ih =>
    refine (Value.failsIn_ordered c v best).bind fun earlier => ?_
    split
    · exact ih v
    · exact ih best

theorem failsIn_chooseAll (c : Comparison) (word : String) (values : List Value) :
    FailsIn Cause.Reported (chooseAll c word values) := by
  cases values with
  | nil => exact .error nofun
  | cons v values => exact failsIn_choose c values v

theorem failsIn_splitText (v separator : Value) : FailsIn Cause.Reported (splitText v separator) := by
  unfold splitText
  split
  · split
    · exact .ok _
    · split
      · exact .ok _
      · exact .error nofun
  · exact .error nofun

theorem failsIn_members (v : Value) : FailsIn Cause.Reported (members v) := by
  cases v <;> first | exact .ok _ | exact .error nofun

theorem failsIn_joinTexts (v separator : Value) : FailsIn Cause.Reported (joinTexts v separator) := by
  unfold joinTexts
  split
  · refine (failsIn_members v).bind fun values => ?_
    rw [Value.textItems_eq_mapM]
    exact (FailsIn.mapM fun v _ => failsIn_text v).bind fun texts => .ok _
  · exact .error nofun

theorem failsIn_containsItem (container item : Value) : FailsIn Cause.Reported (containsItem container item) := by
  unfold containsItem
  split
  · exact (failsIn_text item).bind fun cs => .ok _
  · exact .ok _
  · exact (failsIn_toKey item).bind fun key => .ok _
  · exact .error nofun

theorem failsIn_keysOf (v : Value) : FailsIn Cause.Reported (keysOf v) := by
  cases v <;> first | exact .ok _ | exact .error nofun

theorem roundTo_eq (v places : Value) :
    roundTo v places = (do
      let n ← v.toNumber
      let digits ← places.toNumber
      (n.roundBy digits).map .num) := by
  refine bind_congr fun n => bind_congr fun digits => ?_
  unfold Number.roundBy
  cases digits.truncate with
  | error cause => rfl
  | ok i =>
    change (n.round i >>= fun rounded => pure (Value.num rounded)) = (n.round i).map Value.num
    cases n.round i <;> rfl

theorem roundTo_eq_error {v places : Value} (h : roundTo v places = .error cause) : cause.Reported ∨
    ∃ n digits, v.toNumber = .ok n ∧ places.toNumber = .ok digits ∧ n.Unroundable digits cause := by
  rw [roundTo_eq] at h
  obtain h | ⟨n, hn, h⟩ := bind_eq_error.mp h
  · exact .inl (v.failsIn_toNumber cause h)
  · obtain h | ⟨digits, hdigits, h⟩ := bind_eq_error.mp h
    · exact .inl (places.failsIn_toNumber cause h)
    · obtain hreported | hunroundable := Number.roundBy_eq_error (map_eq_error.mp h)
      · exact .inl hreported
      · exact .inr ⟨n, digits, hn, hdigits, hunroundable⟩

theorem roundTo_of_unroundable {v places : Value} {n digits : Number} (hn : v.toNumber = .ok n)
    (hdigits : places.toNumber = .ok digits) (h : n.Unroundable digits cause) :
    roundTo v places = .error cause := by
  rw [roundTo_eq, hn, hdigits]
  exact map_eq_error.mpr h.roundBy

theorem run_reported_or (h : f.run args = .error cause) : cause.Reported ∨ f.OutOfRange args cause := by
  unfold run at h
  -- one case for each builtin and number of arguments, in the order of `run`
  split at h
  · exact .inl (failsIn_lengthOf _ cause h)
  · cases h
    exact .inl nofun
  · exact .inl ((failsIn_text _).map.map cause h)
  · exact .inl ((Value.failsIn_toNumber _).map cause h)
  · rename_i v
    obtain h | ⟨n, hn, h⟩ := bind_eq_error.mp h
    · exact .inl (v.failsIn_toNumber cause h)
    · obtain h | ⟨i, -, h⟩ := bind_eq_error.mp h
      · obtain hreported | ⟨hinfinite, rfl⟩ := Number.truncate_eq_error h
        · exact .inl hreported
        · exact .inr (.int hn hinfinite)
      · cases h
  · obtain hreported | ⟨n, digits, hn, hdigits, h⟩ := roundTo_eq_error h
    · exact .inl hreported
    · cases hdigits
      exact .inr (.round hn h)
  · obtain hreported | ⟨n, digits, hn, hdigits, h⟩ := roundTo_eq_error h
    · exact .inl hreported
    · exact .inr (.roundTo hn hdigits h)
  · obtain h | ⟨n, -, h⟩ := bind_eq_error.mp h
    · exact .inl (Value.failsIn_toNumber _ cause h)
    · cases h
  · exact .inl (failsIn_chooseAll _ _ _ cause h)
  · exact .inl (failsIn_chooseAll _ _ _ cause h)
  · exact .inl ((failsIn_text _).map cause h)
  · exact .inl ((failsIn_text _).map cause h)
  · exact .inl ((failsIn_text _).map cause h)
  · exact .inl (failsIn_splitText _ _ cause h)
  · exact .inl (failsIn_splitText _ _ cause h)
  · exact .inl (failsIn_joinTexts _ _ cause h)
  · exact .inl (failsIn_joinTexts _ _ cause h)
  · exact .inl (failsIn_containsItem _ _ cause h)
  · exact .inl (failsIn_keysOf _ cause h)
  · cases h

theorem OutOfRange.not_reported (h : f.OutOfRange args cause) : ¬ cause.Reported := by
  cases h with
  | int hv h => exact fun hreported => hreported rfl
  | round hv h => exact h.not_reported
  | roundTo hv hplaces h => exact h.not_reported

theorem OutOfRange.call (h : f.OutOfRange args cause) : f.call args = .error cause := by
  cases h with
  | int hv h =>
    change (do return Value.int (← (← Value.toNumber _).truncate)) = _
    exact bind_eq_error.mpr (.inr ⟨_, hv, bind_eq_error.mpr (.inl (Number.truncate_of_infinite h))⟩)
  | round hv h => exact roundTo_of_unroundable hv rfl h
  | roundTo hv hplaces h => exact roundTo_of_unroundable hv hplaces h

theorem call_unreported_iff : f.call args = .error cause ∧ ¬ cause.Reported ↔ f.OutOfRange args cause := by
  constructor
  · rintro ⟨h, hunreported⟩
    unfold call at h
    dsimp only at h
    split at h
    · obtain h | ⟨-, -, h⟩ := bind_eq_error.mp h
      · exact absurd (failsIn_checkCount _ _ cause h) hunreported
      · exact (run_reported_or h).resolve_left hunreported
    · exact (run_reported_or h).resolve_left hunreported
  · intro h
    exact ⟨h.call, h.not_reported⟩

end Builtin

namespace Expr

open Evaluation (fault escape report)

variable {bindings : Environment} {cause : Cause} {v left right target place : Value}

theorem report_eq_escaped {α : Type} {toFault : Cause → Fault} {r : Except Cause α} :
    report toFault r = .error (.escaped cause) ↔ r = .error cause ∧ ¬ cause.Reported := by
  unfold report Cause.Reported
  rw [mapError_eq_error, not_not]
  constructor
  · rintro ⟨other, h, hother⟩
    split at hother <;> cases hother
    exact ⟨h, ‹_›⟩
  · rintro ⟨h, hoverflow⟩
    exact ⟨cause, h, by rw [if_pos hoverflow]⟩

theorem escape_eq_escaped {α : Type} {r : Except Cause α} : escape r = .error (.escaped cause) ↔ r = .error cause := by
  simp [escape, mapError_eq_error]

theorem ne_escaped {r : Evaluation Value} (h : FailsIn Failure.Declared r) : r ≠ .error (.escaped cause) :=
  fun hr => h _ hr

/-- The text of a value is called for beside a text, and the value has none for an integer of too many digits. -/
inductive Unjoinable : Value → Value → Prop
  | right {s : String} {v : Value} (h : ¬ v.Over Number.Writable) : Unjoinable (.str s) v
  | left {s : String} {v : Value} (h : ¬ v.Over Number.Writable) : Unjoinable v (.str s)

theorem sum_eq_escaped : sum left right = .error (.escaped cause) ↔
    Unjoinable left right ∧ cause = .unwritableInteger := by
  have htext {v : Value} : escape v.toText = .error (.escaped cause) ↔
      ¬ v.Over Number.Writable ∧ cause = .unwritableInteger := by
    rw [escape_eq_escaped, Value.toText_eq_error]
  constructor
  · intro h
    unfold sum at h
    split at h
    · obtain ⟨hlong, rfl⟩ := htext.mp (bind_pure_eq_error.mp h)
      exact ⟨.right hlong, rfl⟩
    · obtain ⟨hlong, rfl⟩ := htext.mp (bind_pure_eq_error.mp h)
      exact ⟨.left hlong, rfl⟩
    · cases h
    · cases h
    · split at h
      · exact absurd h (ne_escaped (failsIn_arithmetic _))
      · cases h
  · rintro ⟨hjoin, rfl⟩
    cases hjoin with
    | right hlong =>
      exact bind_pure_eq_error.mpr (htext.mpr ⟨hlong, rfl⟩)
    | left hlong =>
      -- the second equation of `sum` is for what is no text, and a text has no integer in it
      rw [sum.eq_2]
      · exact bind_pure_eq_error.mpr (htext.mpr ⟨hlong, rfl⟩)
      · rintro s rfl
        exact hlong (.str s)

theorem Unjoinable.not_null (h : Unjoinable left right) : ¬ (left.kind = .null ∨ right.kind = .null) := by
  have hkind {v : Value} (hv : ¬ v.Over Number.Writable) : v.kind ≠ .null := by
    rintro hnull
    cases v with
    | null => exact hv .null
    | num n => cases n <;> cases hnull
    | _ => cases hnull
  cases h with
  | right hlong => exact not_or.mpr ⟨nofun, hkind hlong⟩
  | left hlong => exact not_or.mpr ⟨hkind hlong, nofun⟩

theorem applyBinary_eq_escaped {op : BinaryOp} : applyBinary op left right = .error (.escaped cause) ↔
    op = .add ∧ Unjoinable left right ∧ cause = .unwritableInteger := by
  constructor
  · intro h
    by_cases hadd : op = .add
    · subst hadd
      unfold applyBinary at h
      dsimp only at h
      split at h
      · cases h
      · exact ⟨rfl, sum_eq_escaped.mp h⟩
    · have hdeclared : FailsIn Failure.Declared (applyBinary op left right) :=
        failsIn_applyBinary op (fun _ hdeclared => hdeclared) fun hop => absurd hop hadd
      exact absurd h (ne_escaped hdeclared)
  · rintro ⟨rfl, hjoin, hcause⟩
    unfold applyBinary
    dsimp only
    rw [if_neg hjoin.not_null]
    exact sum_eq_escaped.mpr ⟨hjoin, hcause⟩

/-- The place is called for by its text, and has none for an integer of too many digits. -/
inductive Unplaceable : Value → Value → Prop
  | key {entries : Environment} {place : Value} (h : ¬ place.Over Number.Writable) : Unplaceable (.map entries) place
  | item {items : List Value} {place : Value} (hplace : place.number? = none) (h : ¬ place.Over Number.Writable) :
    Unplaceable (.list items) place
  | character {s : String} {place : Value} (hplace : place.number? = none) (h : ¬ place.Over Number.Writable) :
    Unplaceable (.str s) place

theorem placeOf_eq_escaped : placeOf place = .error (.escaped cause) ↔
    (place.number? = none ∧ ¬ place.Over Number.Writable) ∧ cause = .unwritableInteger := by
  have htext : (do fault (.badIndex (← escape place.toText)) : Evaluation Int) = .error (.escaped cause) ↔
      ¬ place.Over Number.Writable ∧ cause = .unwritableInteger := by
    rw [bind_eq_error, escape_eq_escaped, Value.toText_eq_error]
    simp [fault]
  cases place with
  | num n =>
    cases n with
    | int i => simp [placeOf, Value.number?]
    | float x =>
      unfold placeOf
      dsimp only
      split
      · simp [Value.number?]
      · rw [htext]
        simp [Value.number?, Number.Writable]
    | unknown mark =>
      refine htext.trans ?_
      simp [Value.number?, Number.Writable]
  | bool b =>
    refine htext.trans ?_
    simp
  | _ =>
    refine htext.trans ?_
    simp [Value.number?]

theorem indexOf_eq_escaped : indexOf target place = .error (.escaped cause) ↔
    Unplaceable target place ∧ cause = .unwritableInteger := by
  cases target with
  | map entries =>
    unfold indexOf
    rw [bind_pure_eq_error, escape_eq_escaped, Value.toText_eq_error]
    constructor
    · rintro ⟨h, rfl⟩
      exact ⟨.key h, rfl⟩
    · rintro ⟨⟨h⟩, rfl⟩
      exact ⟨h, rfl⟩
  | list items =>
    unfold indexOf
    rw [bind_pure_eq_error, placeOf_eq_escaped]
    constructor
    · rintro ⟨⟨hplace, h⟩, rfl⟩
      exact ⟨.item hplace h, rfl⟩
    · rintro ⟨⟨⟩, rfl⟩
      exact ⟨⟨‹_›, ‹_›⟩, rfl⟩
  | str s =>
    unfold indexOf
    rw [bind_pure_eq_error, placeOf_eq_escaped]
    constructor
    · rintro ⟨⟨hplace, h⟩, rfl⟩
      exact ⟨.character hplace h, rfl⟩
    · rintro ⟨⟨⟩, rfl⟩
      exact ⟨⟨‹_›, ‹_›⟩, rfl⟩
  | _ => exact iff_of_false nofun nofun

/-- Evaluation of an expression comes to a part of it. -/
inductive Reaches (bindings : Environment) : Expr → Expr → Prop
  | target {target : Expr} {word : String} : Reaches bindings (.member target word) target
  | indexed {target place : Expr} : Reaches bindings (.index target place) target
  | place {target place : Expr} {v : Value} (htarget : eval bindings target = .ok v) :
    Reaches bindings (.index target place) place
  | argument {word : String} {f : Builtin} {before after : List Expr} {part : Expr} {values : List Value}
      (hf : Builtin.ofName? word = some f) (hbefore : before.mapM (eval bindings) = .ok values) :
    Reaches bindings (.call word (before ++ part :: after)) part
  | operand {op : UnaryOp} {operand : Expr} : Reaches bindings (.unary op operand) operand
  | left {op : BinaryOp} {left right : Expr} : Reaches bindings (.binary op left right) left
  | right {op : BinaryOp} {left right : Expr} {v : Value} (hleft : eval bindings left = .ok v) :
    Reaches bindings (.binary op left right) right
  | first {op : LogicalOp} {left right : Expr} : Reaches bindings (.logical op left right) left
  | conjunct {left right : Expr} {v : Value} (hleft : eval bindings left = .ok v) (hv : v.truthy) :
    Reaches bindings (.logical .and left right) right
  | alternative {left right : Expr} {v : Value} (hleft : eval bindings left = .ok v) (hv : ¬ v.truthy) :
    Reaches bindings (.logical .or left right) right
  | test {test whenTrue whenFalse : Expr} : Reaches bindings (.conditional test whenTrue whenFalse) test
  | whenTrue {test whenTrue whenFalse : Expr} {v : Value} (htest : eval bindings test = .ok v) (hv : v.truthy) :
    Reaches bindings (.conditional test whenTrue whenFalse) whenTrue
  | whenFalse {test whenTrue whenFalse : Expr} {v : Value} (htest : eval bindings test = .ok v) (hv : ¬ v.truthy) :
    Reaches bindings (.conditional test whenTrue whenFalse) whenFalse
  | item {before after : List Expr} {part : Expr} {values : List Value}
      (hbefore : before.mapM (eval bindings) = .ok values) : Reaches bindings (.list (before ++ part :: after)) part
  | entry {before after : List (String × Expr)} {key : String} {part : Expr} {values : List (Key × Value)}
      (hbefore : evalEntries bindings before = .ok values) :
    Reaches bindings (.map (before ++ (key, part) :: after)) part

/-- Evaluation comes to an operation that fails by a cause that is not reported as a fault. -/
inductive Unguarded (bindings : Environment) : Expr → Cause → Prop
  | range {word : String} {f : Builtin} {arguments : List Expr} {values : List Value} {cause : Cause}
      (hf : Builtin.ofName? word = some f) (hvalues : evalItems bindings arguments = .ok values)
      (h : f.OutOfRange values cause) : Unguarded bindings (.call word arguments) cause
  | joined {left right : Expr} {v w : Value} (hleft : eval bindings left = .ok v) (hright : eval bindings right = .ok w)
      (h : Unjoinable v w) : Unguarded bindings (.binary .add left right) .unwritableInteger
  | placed {target place : Expr} {v w : Value} (htarget : eval bindings target = .ok v)
      (hplace : eval bindings place = .ok w) (h : Unplaceable v w) :
    Unguarded bindings (.index target place) .unwritableInteger
  | within {e part : Expr} {cause : Cause} (hreach : Reaches bindings e part) (h : Unguarded bindings part cause) :
    Unguarded bindings e cause

theorem evalEntries_eq_error {entries : List (String × Expr)} {failure : Failure} :
    evalEntries bindings entries = .error failure ↔ ∃ before key e after values,
      entries = before ++ (key, e) :: after ∧ evalEntries bindings before = .ok values ∧
        eval bindings e = .error failure := by
  simp only [evalEntries_eq_mapM, mapM_eq_error, Prod.exists, bind_pure_eq_error]

theorem Reaches.eval {e part : Expr} {failure : Failure} (hreach : Reaches bindings e part)
    (h : eval bindings part = .error failure) : Expr.eval bindings e = .error failure := by
  cases hreach with
  | target | indexed | operand | left | first | test =>
    rw [Expr.eval, h]
    rfl
  | place hv | right hv =>
    rw [Expr.eval, hv, h]
    rfl
  | argument hf hbefore =>
    rw [Expr.eval, hf]
    refine bind_eq_error.mpr (.inl ?_)
    rw [evalItems_eq_mapM, mapM_eq_error]
    exact ⟨_, _, _, _, rfl, hbefore, h⟩
  | conjunct hleft hv | alternative hleft hv | whenTrue hleft hv | whenFalse hleft hv =>
    rw [Expr.eval, hleft]
    simp [bind, Except.bind, hv, h]
  | item hbefore =>
    rw [Expr.eval, bind_pure_eq_error, evalItems_eq_mapM, mapM_eq_error]
    exact ⟨_, _, _, _, rfl, hbefore, h⟩
  | entry hbefore =>
    rw [Expr.eval]
    refine bind_pure_eq_error.mpr (evalEntries_eq_error.mpr ⟨_, _, _, _, _, rfl, hbefore, h⟩)

theorem Unguarded.eval {e : Expr} (h : Unguarded bindings e cause) :
    Expr.eval bindings e = .error (.escaped cause) := by
  induction h with
  | range hf hvalues h =>
    rw [Expr.eval, hf]
    dsimp only
    rw [hvalues]
    exact report_eq_escaped.mpr (Builtin.call_unreported_iff.mpr h)
  | joined hleft hright h =>
    rw [Expr.eval, hleft, hright]
    exact applyBinary_eq_escaped.mpr ⟨rfl, h, rfl⟩
  | placed htarget hplace h =>
    rw [Expr.eval, htarget, hplace]
    exact indexOf_eq_escaped.mpr ⟨h, rfl⟩
  | within hreach h ih => exact hreach.eval ih

theorem unguarded_of_items {items : List Expr} (ih : ∀ e ∈ items, eval bindings e = .error (.escaped cause) →
    Unguarded bindings e cause) (h : evalItems bindings items = .error (.escaped cause)) :
    ∃ before e after values, items = before ++ e :: after ∧ before.mapM (eval bindings) = .ok values ∧
      Unguarded bindings e cause := by
  rw [evalItems_eq_mapM, mapM_eq_error] at h
  obtain ⟨before, e, after, values, rfl, hbefore, he⟩ := h
  exact ⟨before, e, after, values, rfl, hbefore, ih e (by simp) he⟩

theorem eval_eq_escaped {e : Expr} : eval bindings e = .error (.escaped cause) ↔ Unguarded bindings e cause := by
  refine ⟨fun h => ?_, Unguarded.eval⟩
  -- a failure is that of a part, or else of the operation, which can only escape in a call, a sum or a place
  induction e using Expr.induct with
  | numeral n => exact absurd h (ne_escaped (failsIn_finite n))
  | text s => cases h
  | boolean b => cases h
  | null => cases h
  | name word => exact absurd h (ne_escaped (failsIn_lookUp word))
  | member target word ih =>
    obtain h | ⟨v, -, h⟩ := bind_eq_error.mp h
    · exact .within .target (ih h)
    · exact absurd h (ne_escaped (failsIn_memberOf word))
  | index target place ihtarget ihplace =>
    obtain h | ⟨v, hv, h⟩ := bind_eq_error.mp h
    · exact .within .indexed (ihtarget h)
    · obtain h | ⟨w, hw, h⟩ := bind_eq_error.mp h
      · exact .within (.place hv) (ihplace h)
      · obtain ⟨hplace, rfl⟩ := indexOf_eq_escaped.mp h
        exact .placed hv hw hplace
  | call word arguments ih =>
    rw [eval] at h
    split at h
    · cases h
    · rename_i f hf
      obtain h | ⟨values, hvalues, h⟩ := bind_eq_error.mp h
      · obtain ⟨before, e, after, values, rfl, hbefore, he⟩ := unguarded_of_items ih h
        exact .within (.argument hf hbefore) he
      · exact .range hf hvalues (Builtin.call_unreported_iff.mp (report_eq_escaped.mp h))
  | unary op operand ih =>
    obtain h | ⟨v, -, h⟩ := bind_eq_error.mp h
    · exact .within .operand (ih h)
    · exact absurd h (ne_escaped (failsIn_applyUnary op))
  | binary op left right ihleft ihright =>
    obtain h | ⟨v, hv, h⟩ := bind_eq_error.mp h
    · exact .within .left (ihleft h)
    · obtain h | ⟨w, hw, h⟩ := bind_eq_error.mp h
      · exact .within (.right hv) (ihright h)
      · obtain ⟨rfl, hjoin, rfl⟩ := applyBinary_eq_escaped.mp h
        exact .joined hv hw hjoin
  | logical op left right ihleft ihright =>
    obtain h | ⟨v, hv, h⟩ := bind_eq_error.mp h
    · exact .within .first (ihleft h)
    · cases op with
      | and =>
        dsimp only at h
        split at h
        · exact .within (.conjunct hv ‹_›) (ihright h)
        · cases h
      | or =>
        dsimp only at h
        split at h
        · cases h
        · exact .within (.alternative hv ‹_›) (ihright h)
  | conditional test whenTrue whenFalse ihtest ihtrue ihfalse =>
    obtain h | ⟨v, hv, h⟩ := bind_eq_error.mp h
    · exact .within .test (ihtest h)
    · split at h
      · exact .within (.whenTrue hv ‹_›) (ihtrue h)
      · exact .within (.whenFalse hv ‹_›) (ihfalse h)
  | list items ih =>
    obtain ⟨before, e, after, values, rfl, hbefore, he⟩ := unguarded_of_items ih (bind_pure_eq_error.mp h)
    exact .within (.item hbefore) he
  | map entries ih =>
    obtain ⟨before, key, e, after, values, rfl, hbefore, he⟩ := evalEntries_eq_error.mp (bind_pure_eq_error.mp h)
    exact .within (.entry hbefore) (ih (key, e) (by simp) he)

/-- Code has a value, cannot be read, or has a fault of an expression, unless its evaluation comes to an operation that
leaves the range of numbers or has no text to work with. -/
theorem evaluate_escapes_iff [CharNames] (code : String) (input : Value) (cause : Cause) :
    evaluate code input = .error (.failed (.escaped cause)) ↔
      ∃ e, parse code = .ok e ∧ Unguarded [(.text inputName, input)] e cause := by
  unfold evaluate
  split
  · rename_i problem hparse
    simp [hparse]
  · rename_i e hparse
    simp only [hparse, mapError_eq_error, CodeFailure.failed.injEq, exists_eq_right, eval_eq_escaped, Except.ok.injEq,
      exists_eq_left']

theorem infinity_infinite : (Number.float (Binary.nearest false (Nat.pow 2 1024) 1)).Infinite := by
  have hbits : (Binary.nearest false (Nat.pow 2 1024) 1).toBits = 0x7FF0000000000000 := by decide +kernel
  refine ⟨false, ?_⟩
  rw [Binary.ofFloat, hbits]
  rfl

theorem truncated_infinity_escapes :
    evaluate "int(input.x)" (.record [("x", Json.infinity false)]) = .error (.failed (.escaped .integerOfInfinity)) ∧
      Cause.integerOfInfinity.kindOf.name = "OverflowError" := by
  have hparse : parse "int(input.x)" = .ok (.call "int" [.member (.name "input") "x"]) := by cbv
  have hargument : evalItems [(.text inputName, .record [("x", Json.infinity false)])] [.member (.name "input") "x"] =
      .ok [Json.infinity false] := rfl
  refine ⟨?_, rfl⟩
  rw [evaluate, hparse]
  exact mapError_eq_error.mpr ⟨_, Unguarded.eval (.range rfl hargument (.int rfl infinity_infinite)), rfl⟩

end Expr

end RoutineFlow
