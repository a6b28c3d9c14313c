import RoutineFlow.Expr.Code
import RoutineFlow.Proofs.Finiteness
import RoutineFlow.Value.Search
import RoutineFlow.Value.ToMapping

/-!
An expression on finite values comes to a finite value or to none. Infinities that a numeral, a text or arithmetic could
bring in are refused where they would come up.
-/

namespace RoutineFlow

namespace Builtin

open Value

variable {v w : Value} {values : List Value}

theorem finite_members (h : v.Finite) : Yields (fun items => ∀ item ∈ items, item.Finite) (members v) := by
  unfold members
  split
  · exact .ok (finite_list.mp h)
  · apply Yields.ok
    intro item hitem
    obtain ⟨c, -, rfl⟩ := List.mem_map.mp hitem
    exact .str _
  · rename_i entries
    apply Yields.ok
    intro item hitem
    obtain ⟨key, hkey, rfl⟩ := List.mem_map.mp hitem
    obtain ⟨entry, hentry, rfl⟩ := List.mem_map.mp hkey
    exact finite_ofKey.mpr (finite_map.mp h entry hentry).1
  · exact .error _

theorem finite_choose (c : Comparison) (h : v.Finite) (hvalues : ∀ w ∈ values, w.Finite) :
    Yields Value.Finite (choose c v values) := by
  induction values generalizing v with
  | nil => exact .ok h
  | cons w values ih =>
    obtain ⟨hw, hrest⟩ := List.forall_mem_cons.mp hvalues
    refine Yields.trivial.bind fun less _ => ?_
    cases less with
    | true => exact ih hw hrest
    | false => exact ih h hrest

theorem finite_chooseAll (c : Comparison) (name : String) (hvalues : ∀ v ∈ values, v.Finite) :
    Yields Value.Finite (chooseAll c name values) := by
  cases values with
  | nil => exact .error _
  | cons v rest =>
    obtain ⟨hv, hrest⟩ := List.forall_mem_cons.mp hvalues
    exact finite_choose c hv hrest

theorem finite_candidates (hvalues : ∀ v ∈ values, v.Finite) : ∀ v ∈ candidates values, v.Finite := by
  unfold candidates
  split
  · simpa using hvalues
  · exact hvalues

theorem finite_pieces (parts : List (List Char)) : (pieces parts).Finite := by
  simp [pieces]

theorem finite_splitText (v w : Value) : Yields Value.Finite (splitText v w) := by
  unfold splitText
  split
  · split
    · exact .ok (finite_pieces _)
    · split
      · exact .ok (finite_pieces _)
      · exact .error _
  · exact .error _

theorem finite_joinTexts (v w : Value) : Yields Value.Finite (joinTexts v w) := by
  unfold joinTexts
  split
  · exact Yields.trivial.bind fun items _ => Yields.trivial.bind fun texts _ => .ok (.str _)
  · exact .error _

theorem finite_containsItem (v w : Value) : Yields Value.Finite (containsItem v w) := by
  unfold containsItem
  split
  · exact Yields.trivial.bind fun text _ => .ok (.bool _)
  · exact .ok (.bool _)
  · exact Yields.trivial.bind fun key _ => .ok (.bool _)
  · exact .error _

theorem finite_roundTo (h : v.Finite) (w : Value) : Yields Value.Finite (roundTo v w) := by
  refine h.toNumber.bind fun n hn => ?_
  refine Yields.trivial.bind fun places _ => Yields.trivial.bind fun digits _ => ?_
  exact (Number.finite_round hn digits).bind fun k hk => .ok (.num hk)

theorem finite_keysOf (h : v.Finite) : Yields Value.Finite (keysOf v) := by
  cases v with
  | map entries =>
    apply Yields.ok
    rw [finite_list]
    exact finite_members h _ rfl
  | _ => exact .error _

theorem finite_run {f : Builtin} (hvalues : ∀ v ∈ values, v.Finite) : Yields Value.Finite (run f values) := by
  unfold run
  split
  · unfold lengthOf
    split
    · exact .ok (finite_int _)
    · exact .ok (finite_int _)
    · exact .ok (finite_int _)
    · exact .error _
  · exact .error _
  · exact Yields.trivial.map fun text _ => .str _
  · exact (hvalues _ (by simp)).toNumber.map fun n hn => .num hn
  · exact Yields.trivial.bind fun n _ => Yields.trivial.bind fun i _ => .ok (finite_int i)
  · exact finite_roundTo (hvalues _ (by simp)) _
  · exact finite_roundTo (hvalues _ (by simp)) _
  · exact (hvalues _ (by simp)).toNumber.bind fun n hn => .ok (.num hn.absolute)
  · exact finite_chooseAll .lt "min" (finite_candidates hvalues)
  · exact finite_chooseAll .gt "max" (finite_candidates hvalues)
  · exact Yields.trivial.map fun text _ => .str _
  · exact Yields.trivial.map fun text _ => .str _
  · exact Yields.trivial.map fun text _ => .str _
  · exact finite_splitText _ _
  · exact finite_splitText _ _
  · exact finite_joinTexts _ _
  · exact finite_joinTexts _ _
  · exact finite_containsItem _ _
  · exact finite_keysOf (hvalues _ (by simp))
  · exact .ok .null

theorem finite_call {f : Builtin} (hvalues : ∀ v ∈ values, v.Finite) : Yields Value.Finite (f.call values) := by
  unfold call
  split
  · exact Yields.trivial.bind fun _ _ => finite_run hvalues
  · exact finite_run hvalues

end Builtin

namespace Value

variable {v : Value}

theorem Finite.memberAt {items : List Value} (h : ∀ v ∈ items, v.Finite) (place : Value) :
    Yields Value.Finite (memberAt items place) := by
  unfold Value.memberAt
  split
  · rename_i i hplace
    generalize (if i < 0 then i + items.length else i) = fromStart
    dsimp only
    split
    · exact .error _
    · split
      · exact .ok (h _ (List.mem_of_getElem? ‹_›))
      · exact .error _
  · exact .error _

theorem Finite.search (h : v.Finite) (name : Value) :
    Yields (fun found => ∀ w ∈ found, w.Finite) (v.search name) := by
  unfold Value.search
  split
  · exact Yields.trivial.bind fun key _ => .ok fun w hw => (finite_map.mp h).of_get? hw
  · split
    · exact (Finite.memberAt (finite_list.mp h) name).map fun w hw => by simpa using hw
    · exact .ok nofun
  · split
    · split
      · exact .error _
      · exact .ok nofun
    · exact .error _
  · exact .error _

theorem Finite.select {names : List Value} (h : v.Finite) (hnames : ∀ name ∈ names, name.Finite) :
    Yields Environment.Finite (v.select names) := by
  refine Yields.foldlM Mapping.each_nil fun selected name hname hselected => ?_
  refine (h.search name).bind fun found hfound => ?_
  cases found with
  | none => exact .ok hselected
  | some member => exact (hnames name hname).toKey.bind fun key hkey => .ok (hselected.insert hkey (hfound member rfl))

theorem Finite.toVariables (h : v.Finite) (wanted : List String) :
    Yields Environment.Finite (v.toVariables wanted) := by
  unfold Value.toVariables
  split
  · exact .ok (finite_map.mp h)
  · exact h.select (by simp)

theorem Finite.pairMembers (h : v.Finite) (index : Nat) :
    Yields (fun pair => pair.1.Finite ∧ pair.2.Finite) (pairMembers index v) := by
  unfold Value.pairMembers
  split
  all_goals
    first
    | exact .error _
    | refine (Builtin.finite_members h).bind fun items hitems => ?_
      split
      · exact .ok (by simpa using hitems)
      · exact .error _

theorem finite_entriesFrom {items : List Value} (h : ∀ v ∈ items, v.Finite) (index : Nat) :
    Yields Environment.Finite (entriesFrom index items) := by
  induction items generalizing index with
  | nil => exact .ok Mapping.each_nil
  | cons v rest ih =>
    obtain ⟨hv, hrest⟩ := List.forall_mem_cons.mp h
    refine (hv.pairMembers index).bind fun pair hpair => ?_
    refine hpair.1.toKey.bind fun key hkey => (ih hrest _).bind fun others hothers => ?_
    exact .ok (Mapping.each_cons.mpr ⟨⟨hkey, hpair.2⟩, hothers⟩)

theorem Finite.toMapping (h : v.Finite) : Yields Environment.Finite v.toMapping := by
  unfold Value.toMapping
  split
  · exact .ok (finite_map.mp h)
  · exact (Builtin.finite_members h).bind fun items hitems => (finite_entriesFrom hitems 0).bind fun entries hentries =>
      .ok hentries.ofEntries

end Value

namespace Expr

open Value

variable {v w : Value} {bindings : Environment}

theorem finite_finite (n : Number) : Yields Value.Finite (finite n) := by
  unfold finite
  split
  · exact .ok (.num (Number.finite_int _))
  · split
    · exact .ok (.num ‹_›)
    · exact .error _
  · exact .error _

theorem finite_arithmetic {op : Number → Number → Option Number}
    (hop : op ∈ [Number.add, Number.subtract, Number.multiply, Number.divide, Number.modulo]) (m n : Number) :
    Yields Value.Finite (arithmetic (op m n)) := by
  unfold arithmetic
  split
  · exact .ok (.num (Number.finite_of_arithmetic hop ‹_›))
  · exact .error _

theorem finite_memberOf (h : v.Finite) (word : String) : Yields Value.Finite (memberOf v word) := by
  unfold memberOf
  split
  · exact .error _
  · exact .ok h.get?
  · split
    · exact .ok (finite_int _)
    · exact .error _
  · split
    · exact .ok (finite_int _)
    · exact .error _
  · exact .error _

theorem finite_elementAt {items : List Value} (h : ∀ v ∈ items, v.Finite) (i : Int) :
    (elementAt items i).Finite := by
  have hgetD : ∀ place, (items.getD place .null).Finite := by
    intro place
    rw [List.getD_eq_getElem?_getD]
    cases hget : items[place]? with
    | none => exact .null
    | some v => exact h v (List.mem_of_getElem? hget)
  unfold elementAt
  split
  · split
    · exact hgetD _
    · exact .null
  · exact hgetD _

theorem finite_indexOf (h : v.Finite) (place : Value) : Yields Value.Finite (indexOf v place) := by
  unfold indexOf
  split
  · exact .error _
  · exact Yields.trivial.bind fun text _ => .ok h.get?
  · exact Yields.trivial.bind fun i _ => .ok (finite_elementAt (finite_list.mp h) i)
  · exact Yields.trivial.bind fun i _ => .ok (finite_elementAt (by simp) i)
  · exact .error _

theorem finite_applyUnary (op : UnaryOp) (h : v.Finite) : Yields Value.Finite (applyUnary op v) := by
  have hnumber : Yields Number.Finite (Evaluation.report (.unaryFailed op.symbol) v.toNumber) :=
    h.toNumber.mapError
  cases op with
  | not => exact .ok (.bool _)
  | negative => exact hnumber.bind fun n hn => .ok (.num hn.negate)
  | positive => exact hnumber.bind fun n hn => .ok (.num hn)

theorem finite_sum (hv : v.Finite) (hw : w.Finite) : Yields Value.Finite (sum v w) := by
  unfold sum
  split
  · exact Yields.trivial.bind fun text _ => .ok (.str _)
  · exact Yields.trivial.bind fun text _ => .ok (.str _)
  · apply Yields.ok
    rw [finite_list] at hv hw ⊢
    exact List.forall_mem_append.mpr ⟨hv, hw⟩
  · exact .error _
  · split
    · exact finite_arithmetic (by simp) _ _
    · exact .error _

theorem finite_onNumbers {op : BinaryOp} {f : Number → Number → Evaluation Value}
    (hf : ∀ m n, Yields Value.Finite (f m n)) : Yields Value.Finite (onNumbers op f v w) := by
  unfold onNumbers
  split
  · exact hf _ _
  · exact .error _

theorem finite_unlessZero {op : Number → Number → Option Number}
    (hop : op ∈ [Number.add, Number.subtract, Number.multiply, Number.divide, Number.modulo]) (m n : Number) :
    Yields Value.Finite (unlessZero op m n) := by
  unfold unlessZero
  split
  · exact .error _
  · exact finite_arithmetic hop m n

theorem finite_applyBinary (op : BinaryOp) (hv : v.Finite) (hw : w.Finite) :
    Yields Value.Finite (applyBinary op v w) := by
  unfold applyBinary
  split
  · exact .ok (.bool _)
  · exact .ok (.bool _)
  · exact .ok (.bool _)
  · exact .ok (.bool _)
  · split
    · exact .error _
    split
    · exact finite_sum hv hw
    · exact finite_onNumbers fun m n => finite_arithmetic (by simp) m n
    · exact finite_onNumbers fun m n => finite_arithmetic (by simp) m n
    · exact finite_onNumbers (finite_unlessZero (by simp))
    · exact finite_onNumbers (finite_unlessZero (by simp))
    · exact Yields.trivial.bind fun b _ => .ok (.bool b)
    · exact .error _

mutual

/-- What an expression comes to is finite where all bindings are; its numerals are checked. -/
theorem finite_eval (hbindings : Environment.Finite bindings) : ∀ e : Expr, Yields Value.Finite (eval bindings e)
  | .numeral n => finite_finite n
  | .text s => .ok (.str s)
  | .boolean b => .ok (.bool b)
  | .null => .ok .null
  | .name word => by
    rw [eval, lookUp]
    split
    · exact .ok (hbindings.of_get? ‹_›)
    · exact .error _
  | .member target word => by
    rw [eval]
    exact (finite_eval hbindings target).bind fun v hv => finite_memberOf hv word
  | .index target place => by
    rw [eval]
    exact (finite_eval hbindings target).bind fun v hv => Yields.trivial.bind fun w _ => finite_indexOf hv w
  | .call word arguments => by
    rw [eval]
    split
    · exact .error _
    · exact (finite_evalItems hbindings arguments).bind fun values hvalues => (Builtin.finite_call hvalues).mapError
  | .unary op operand => by
    rw [eval]
    exact (finite_eval hbindings operand).bind fun v hv => finite_applyUnary op hv
  | .binary op left right => by
    rw [eval]
    exact (finite_eval hbindings left).bind fun v hv =>
      (finite_eval hbindings right).bind fun w hw => finite_applyBinary op hv hw
  | .logical op left right => by
    rw [eval]
    refine (finite_eval hbindings left).bind fun v hv => ?_
    have hright := finite_eval hbindings right
    cases op with
    | and => cases v.truthy with
      | true => exact hright
      | false => exact .ok hv
    | or => cases v.truthy with
      | true => exact .ok hv
      | false => exact hright
  | .conditional test whenTrue whenFalse => by
    rw [eval]
    refine Yields.trivial.bind fun v _ => ?_
    have htrue := finite_eval hbindings whenTrue
    have hfalse := finite_eval hbindings whenFalse
    cases v.truthy with
    | true => exact htrue
    | false => exact hfalse
  | .list items => by
    rw [eval]
    exact (finite_evalItems hbindings items).bind fun values hvalues => .ok (.list hvalues)
  | .map entries => by
    rw [eval]
    exact (finite_evalEntries hbindings entries).bind fun values hvalues => .ok (finite_map.mpr hvalues.ofEntries)

theorem finite_evalItems (hbindings : Environment.Finite bindings) :
    ∀ items : List Expr, Yields (fun values => ∀ v ∈ values, v.Finite) (evalItems bindings items)
  | [] => .ok (by simp)
  | e :: rest => by
    rw [evalItems]
    exact (finite_eval hbindings e).bind fun v hv => (finite_evalItems hbindings rest).bind fun values hvalues =>
      .ok (List.forall_mem_cons.mpr ⟨hv, hvalues⟩)

theorem finite_evalEntries (hbindings : Environment.Finite bindings) :
    ∀ entries : List (String × Expr), Yields Environment.Finite (evalEntries bindings entries)
  | [] => .ok Mapping.each_nil
  | (key, e) :: rest => by
    rw [evalEntries]
    exact (finite_eval hbindings e).bind fun v hv => (finite_evalEntries hbindings rest).bind fun values hvalues =>
      .ok (Mapping.each_cons.mpr ⟨⟨Key.finite_text _, hv⟩, hvalues⟩)

end

theorem finite_evaluate [CharNames] (code : String) {input : Value} (h : input.Finite) :
    Yields Value.Finite (evaluate code input) := by
  unfold evaluate
  split
  · exact .error _
  · exact (finite_eval (Mapping.each_cons.mpr ⟨⟨Key.finite_text _, h⟩, Mapping.each_nil⟩) _).mapError

theorem finite_outputs [CharNames] (routine : String) (code : Value) {input : Value} (h : input.Finite) :
    Yields Environment.Finite (outputs routine code input) := by
  unfold outputs
  split
  · refine (finite_evaluate _ h).bind fun v hv => ?_
    split
    · apply Yields.ok
      rw [Value.keepEntries_eq _ _ _ (finite_map.mp hv)]
      exact finite_map.mp hv
    · exact .error _
  · split
    · exact .error _
    · exact .ok Mapping.each_nil

end Expr

end RoutineFlow
