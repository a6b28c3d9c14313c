import RoutineFlow.Expr.Document
import RoutineFlow.Proofs.Assembly
import RoutineFlow.Proofs.Document
import RoutineFlow.Proofs.Evaluation
import RoutineFlow.Proofs.Keyed

/-!
Documents of expressions that are complete at every depth, and their evaluation by rules that have nothing to say about
any others. The evaluator follows the rules, and what the parser reads is complete.
-/

namespace RoutineFlow.Expr

open Evaluation (fault)
open Results

/-- What evaluation expects of a field. -/
inductive Content where
  | number
  | text
  | boolean
  | operator (symbols : List String)
  | node
  | nodes
  | entry
  | entries

/-- The types of nodes, each with the fields that its evaluation reads. -/
def nodeFields : Mapping String (Mapping String Content) :=
  [("Number", [("value", .number)]),
    ("String", [("value", .text)]),
    ("Boolean", [("value", .boolean)]),
    ("Null", []),
    ("Name", [("name", .text)]),
    ("Member", [("target", .node), ("name", .text)]),
    ("IndexExpr", [("target", .node), ("index", .node)]),
    ("Call", [("name", .text), ("args", .nodes)]),
    ("UnaryExpr", [("operator", .operator ["!", "-", "+"]), ("operand", .node)]),
    ("BinaryExpr", [("operator", .operator (BinaryOp.all.map BinaryOp.symbol)), ("left", .node), ("right", .node)]),
    ("LogicalExpr", [("operator", .operator ["&&", "||"]), ("left", .node), ("right", .node)]),
    ("Conditional", [("test", .node), ("then", .node), ("else", .node)]),
    ("ArrayLiteral", [("elements", .nodes)]),
    ("MapLiteral", [("entries", .entries)])]

/-- The document has the content, and so has all that it consists of. -/
inductive Complete : Content → Value → Prop
  | number (n : Number) : Complete .number (.num n)
  | text (s : String) : Complete .text (.str s)
  | boolean (b : Bool) : Complete .boolean (.bool b)
  | operator {symbols : List String} {symbol : String} (h : symbol ∈ symbols) :
    Complete (.operator symbols) (.str symbol)
  | node {entries : Environment} {type : String} {fields : Mapping String Content}
      (htype : Mapping.get? entries "type" = some (.str type)) (hknown : Mapping.get? nodeFields type = some fields)
      (hfields : ∀ field ∈ fields, Mapping.has entries field.1)
      (h : ∀ field ∈ fields, ∀ v, Mapping.get? entries field.1 = some v → Complete field.2 v) :
    Complete .node (.map entries)
  | nodes {items : List Value} (h : ∀ v ∈ items, Complete .node v) : Complete .nodes (.list items)
  | entry {fields : Environment} {key : String} {v : Value} (hkey : Mapping.get? fields "key" = some (.str key))
      (hvalue : Mapping.get? fields "value" = some v) (h : Complete .node v) : Complete .entry (.map fields)
  | entries {items : List Value} (h : ∀ v ∈ items, Complete .entry v) : Complete .entries (.list items)

def IsEntry (item : Value) (key : String) (v : Value) : Prop :=
  ∃ fields, item = .map fields ∧ Mapping.get? fields "key" = some (.str key) ∧ Mapping.get? fields "value" = some v

/-- The rules of evaluation, one for each type of node. None has a default for a field, none is for what is no node. -/
inductive Evaluates (bindings : Environment) : Value → Evaluation Value → Prop
  | number {entries : Environment} {n : Number} (htype : Mapping.get? entries "type" = some (.str "Number"))
      (hvalue : Mapping.get? entries "value" = some (.num n)) : Evaluates bindings (.map entries) (finite n)
  | text {entries : Environment} {s : String} (htype : Mapping.get? entries "type" = some (.str "String"))
      (hvalue : Mapping.get? entries "value" = some (.str s)) : Evaluates bindings (.map entries) (.ok (.str s))
  | boolean {entries : Environment} {b : Bool} (htype : Mapping.get? entries "type" = some (.str "Boolean"))
      (hvalue : Mapping.get? entries "value" = some (.bool b)) : Evaluates bindings (.map entries) (.ok (.bool b))
  | null {entries : Environment} (htype : Mapping.get? entries "type" = some (.str "Null")) :
    Evaluates bindings (.map entries) (.ok .null)
  | name {entries : Environment} {word : String} (htype : Mapping.get? entries "type" = some (.str "Name"))
      (hname : Mapping.get? entries "name" = some (.str word)) :
    Evaluates bindings (.map entries) (lookUp bindings word)
  | member {entries : Environment} {target : Value} {word : String} {r : Evaluation Value}
      (htype : Mapping.get? entries "type" = some (.str "Member"))
      (htarget : Mapping.get? entries "target" = some target)
      (hname : Mapping.get? entries "name" = some (.str word)) (h : Evaluates bindings target r) :
    Evaluates bindings (.map entries) (do memberOf (← r) word)
  | index {entries : Environment} {target place : Value} {r r' : Evaluation Value}
      (htype : Mapping.get? entries "type" = some (.str "IndexExpr"))
      (htarget : Mapping.get? entries "target" = some target) (hindex : Mapping.get? entries "index" = some place)
      (h : Evaluates bindings target r) (h' : Evaluates bindings place r') :
    Evaluates bindings (.map entries) (do indexOf (← r) (← r'))
  | call {entries : Environment} {word : String} {arguments : List Value} {r : Value → Evaluation Value}
      (htype : Mapping.get? entries "type" = some (.str "Call"))
      (hname : Mapping.get? entries "name" = some (.str word))
      (hargs : Mapping.get? entries "args" = some (.list arguments))
      (h : ∀ v ∈ arguments, Evaluates bindings v (r v)) :
    Evaluates bindings (.map entries) (match Builtin.ofName? word with
      | none => fault (.unknownFunction word)
      | some f => do applyCall word f (← arguments.mapM r))
  | unary {entries : Environment} {op : UnaryOp} {operand : Value} {r : Evaluation Value}
      (htype : Mapping.get? entries "type" = some (.str "UnaryExpr"))
      (hoperator : Mapping.get? entries "operator" = some (.str op.symbol))
      (hoperand : Mapping.get? entries "operand" = some operand) (h : Evaluates bindings operand r) :
    Evaluates bindings (.map entries) (do applyUnary op (← r))
  | binary {entries : Environment} {op : BinaryOp} {left right : Value} {r r' : Evaluation Value}
      (htype : Mapping.get? entries "type" = some (.str "BinaryExpr"))
      (hoperator : Mapping.get? entries "operator" = some (.str op.symbol))
      (hleft : Mapping.get? entries "left" = some left) (hright : Mapping.get? entries "right" = some right)
      (h : Evaluates bindings left r) (h' : Evaluates bindings right r') :
    Evaluates bindings (.map entries) (do applyBinary op (← r) (← r'))
  | logical {entries : Environment} {op : LogicalOp} {left right : Value} {r r' : Evaluation Value}
      (htype : Mapping.get? entries "type" = some (.str "LogicalExpr"))
      (hoperator : Mapping.get? entries "operator" = some (.str op.symbol))
      (hleft : Mapping.get? entries "left" = some left) (hright : Mapping.get? entries "right" = some right)
      (h : Evaluates bindings left r) (h' : Evaluates bindings right r') :
    Evaluates bindings (.map entries) (do
      let v ← r
      match op with
      | .and => if v.truthy then r' else return v
      | .or => if v.truthy then return v else r')
  | conditional {entries : Environment} {test whenTrue whenFalse : Value} {r r' r'' : Evaluation Value}
      (htype : Mapping.get? entries "type" = some (.str "Conditional"))
      (htest : Mapping.get? entries "test" = some test) (hthen : Mapping.get? entries "then" = some whenTrue)
      (helse : Mapping.get? entries "else" = some whenFalse) (h : Evaluates bindings test r)
      (h' : Evaluates bindings whenTrue r') (h'' : Evaluates bindings whenFalse r'') :
    Evaluates bindings (.map entries) (do if (← r).truthy then r' else r'')
  | list {entries : Environment} {items : List Value} {r : Value → Evaluation Value}
      (htype : Mapping.get? entries "type" = some (.str "ArrayLiteral"))
      (helements : Mapping.get? entries "elements" = some (.list items))
      (h : ∀ v ∈ items, Evaluates bindings v (r v)) :
    Evaluates bindings (.map entries) (do return .list (← items.mapM r))
  | map {entries : Environment} {items : List Value} {key : Value → String} {value : Value → Value}
      {r : Value → Evaluation Value} (htype : Mapping.get? entries "type" = some (.str "MapLiteral"))
      (hentries : Mapping.get? entries "entries" = some (.list items))
      (hitems : ∀ item ∈ items, IsEntry item (key item) (value item))
      (h : ∀ item ∈ items, Evaluates bindings (value item) (r item)) :
    Evaluates bindings (.map entries) (do
      return .map (Mapping.ofEntries (← items.mapM fun item => do return (.text (key item), ← r item))))

section Fields

variable {bindings : Value} {entries : Environment} {key default : String} {v : Value}

theorem fieldOr_of_get? (h : Mapping.get? entries key = some v) : fieldOr entries key default = v := by
  rw [fieldOr, h]
  rfl

theorem evalField_of_get? (h : Mapping.get? entries key = some v) :
    evalField bindings key entries = evalDocument bindings v := by
  induction entries with
  | nil => cases h
  | cons entry entries ih =>
    rw [Mapping.get?_cons, BEq.comm] at h
    rw [evalField]
    split at h
    · cases h
      rw [if_pos ‹_›]
    · rw [if_neg ‹_›, ih h]

theorem evalEach_eq_mapM (items : List Value) : evalEach bindings items = items.mapM (evalDocument bindings) := by
  induction items with
  | nil => rfl
  | cons v items ih => rw [evalEach, ih, List.mapM_cons]

theorem evalListField_of_get? {items : List Value} (h : Mapping.get? entries key = some (.list items)) :
    evalListField bindings key entries = items.mapM (evalDocument bindings) := by
  induction entries with
  | nil => cases h
  | cons entry entries ih =>
    obtain ⟨k, w⟩ := entry
    rw [Mapping.get?_cons, BEq.comm] at h
    split at h
    · cases h
      rw [evalListField, if_pos ‹_›, evalEach_eq_mapM]
    · cases w <;> rw [evalListField, if_neg ‹_›, ih h] <;> nofun

theorem evalEntry_eq_mapM {items : List Value} {key : Value → String} {value : Value → Value}
    (h : ∀ item ∈ items, IsEntry item (key item) (value item)) :
    evalEntry bindings items =
      items.mapM fun item => do return (.text (key item), ← evalDocument bindings (value item)) := by
  induction items with
  | nil => rfl
  | cons item items ih =>
    obtain ⟨⟨fields, hitem, hkey, hvalue⟩, hrest⟩ := List.forall_mem_cons.mp h
    rw [List.mapM_cons, ← ih hrest]
    generalize key item = word at hkey ⊢
    generalize value item = v at hvalue ⊢
    subst hitem
    rw [evalEntry, evalField_of_get? hvalue, fieldOr_of_get? hkey]
    cases evalDocument bindings v <;> rfl

theorem evalEntryField_of_get? {items : List Value} (h : Mapping.get? entries key = some (.list items)) :
    evalEntryField bindings key entries = evalEntry bindings items := by
  induction entries with
  | nil => cases h
  | cons entry entries ih =>
    obtain ⟨k, w⟩ := entry
    rw [Mapping.get?_cons, BEq.comm] at h
    split at h
    · cases h
      rw [evalEntryField, if_pos ‹_›]
    · cases w <;> rw [evalEntryField, if_neg ‹_›, ih h] <;> nofun

end Fields

section Operators

theorem unaryNamed_symbol (op : UnaryOp) (v : Value) : unaryNamed (.str op.symbol) v = applyUnary op v := by
  cases op <;> rfl

theorem ofSymbol?_symbol (op : BinaryOp) : BinaryOp.ofSymbol? op.symbol = some op := by
  cases op with
  | order c => cases c <;> rfl
  | _ => rfl

theorem binaryNamed_symbol (op : BinaryOp) (v w : Value) : binaryNamed (.str op.symbol) v w = applyBinary op v w := by
  have hop : (Value.str op.symbol).text?.bind BinaryOp.ofSymbol? = some op := ofSymbol?_symbol op
  rw [binaryNamed, hop]

theorem lookUpNamed_text (bindings : Environment) (word : String) :
    lookUpNamed (.map bindings) (.str word) = lookUp bindings word := by
  have hsearch : Evaluation.escape ((Value.map bindings).search (.str word)) = .ok (Mapping.get? bindings word) := rfl
  rw [lookUpNamed, hsearch, lookUp]
  rfl

theorem memberNamed_text (target : Value) (word : String) : memberNamed target (.str word) = memberOf target word := by
  cases target <;> rfl

theorem functionNamed_text (word : String) : functionNamed (.str word) = match Builtin.ofName? word with
    | none => fault (.unknownFunction word)
    | some f => .ok f := by
  have hname : (Value.str word).text?.bind Builtin.ofName? = Builtin.ofName? word := rfl
  have hkey : Evaluation.escape (Value.str word).toKey = .ok (.text word) := rfl
  rw [functionNamed, hname, hkey]
  cases Builtin.ofName? word <;> rfl

end Operators

theorem Evaluates.evalDocument {bindings : Environment} {d : Value} {r : Evaluation Value}
    (h : Evaluates bindings d r) : Expr.evalDocument (.map bindings) d = r := by
  induction h with
  | number htype hvalue | text htype hvalue | boolean htype hvalue =>
    rw [Expr.evalDocument]
    simp only [fieldOr_of_get? htype, hvalue, Option.getD_some]
  | null htype =>
    rw [Expr.evalDocument]
    simp only [fieldOr_of_get? htype]
  | name htype hname =>
    rw [Expr.evalDocument]
    simp only [fieldOr_of_get? htype, fieldOr_of_get? hname, lookUpNamed_text]
  | member htype htarget hname h ih =>
    rw [Expr.evalDocument]
    simp only [fieldOr_of_get? htype, fieldOr_of_get? hname, evalField_of_get? htarget, ih, memberNamed_text]
  | index htype htarget hindex h h' ih ih' =>
    rw [Expr.evalDocument]
    simp only [fieldOr_of_get? htype, evalField_of_get? htarget, evalField_of_get? hindex, ih, ih']
  | call htype hname hargs h ih =>
    rw [Expr.evalDocument]
    simp only [fieldOr_of_get? htype, fieldOr_of_get? hname, evalListField_of_get? hargs, mapM_congr ih,
      functionNamed_text]
    cases Builtin.ofName? _ <;> rfl
  | unary htype hoperator hoperand h ih =>
    rw [Expr.evalDocument]
    simp only [fieldOr_of_get? htype, fieldOr_of_get? hoperator, evalField_of_get? hoperand, ih, unaryNamed_symbol]
  | binary htype hoperator hleft hright h h' ih ih' =>
    rw [Expr.evalDocument]
    simp only [fieldOr_of_get? htype, fieldOr_of_get? hoperator, evalField_of_get? hleft, evalField_of_get? hright, ih,
      ih', binaryNamed_symbol]
  | @logical entries op _ _ _ _ htype hoperator hleft hright h h' ih ih' =>
    rw [Expr.evalDocument]
    simp only [fieldOr_of_get? htype, fieldOr_of_get? hoperator, evalField_of_get? hleft, evalField_of_get? hright, ih,
      ih']
    cases op <;> rfl
  | conditional htype htest hthen helse h h' h'' ih ih' ih'' =>
    rw [Expr.evalDocument]
    simp only [fieldOr_of_get? htype, evalField_of_get? htest, evalField_of_get? hthen, evalField_of_get? helse, ih,
      ih', ih'']
  | list htype helements h ih =>
    rw [Expr.evalDocument]
    simp only [fieldOr_of_get? htype, evalListField_of_get? helements, mapM_congr ih]
  | @map entries items key value r htype hentries hitems h ih =>
    have hrows : (items.mapM fun item => do
        return (Key.text (key item), ← Expr.evalDocument (.map bindings) (value item))) =
        items.mapM fun item => do return (Key.text (key item), ← r item) :=
      mapM_congr fun item hitem => by rw [ih item hitem]
    rw [Expr.evalDocument]
    simp only [fieldOr_of_get? htype, evalEntryField_of_get? hentries, evalEntry_eq_mapM hitems, hrows]

/-- The evaluator and the rules agree on the document. -/
def Regular (bindings : Environment) (d : Value) : Prop :=
  Evaluates bindings d (Expr.evalDocument (.map bindings) d)

theorem Evaluates.regular {bindings : Environment} {d : Value} {r : Evaluation Value} (h : Evaluates bindings d r) :
    Regular bindings d := by
  rw [Regular, h.evalDocument]
  exact h

/-- What a rule asks of a field of the content. -/
def Content.Read (bindings : Environment) : Content → Value → Prop
  | .number, v => ∃ n, v = .num n
  | .text, v => ∃ s, v = .str s
  | .boolean, v => ∃ b, v = .bool b
  | .operator symbols, v => ∃ symbol ∈ symbols, v = .str symbol
  | .node, v => Regular bindings v
  | .nodes, v => ∃ items, v = .list items ∧ ∀ item ∈ items, Regular bindings item
  | .entry, v => ∃ key w, IsEntry v key w ∧ Regular bindings w
  | .entries, v => ∃ items, v = .list items ∧ ∀ item ∈ items, ∃ key w, IsEntry item key w ∧ Regular bindings w

section Rules

variable {bindings entries : Environment} {type : String} {fields : Mapping String Content}

theorem exists_unary {symbol : String} (h : symbol ∈ ["!", "-", "+"]) : ∃ op : UnaryOp, symbol = op.symbol := by
  simp only [List.mem_cons, List.not_mem_nil, or_false] at h
  obtain rfl | rfl | rfl := h
  · exact ⟨.not, rfl⟩
  · exact ⟨.negative, rfl⟩
  · exact ⟨.positive, rfl⟩

theorem exists_logical {symbol : String} (h : symbol ∈ ["&&", "||"]) : ∃ op : LogicalOp, symbol = op.symbol := by
  simp only [List.mem_cons, List.not_mem_nil, or_false] at h
  obtain rfl | rfl := h
  · exact ⟨.and, rfl⟩
  · exact ⟨.or, rfl⟩

theorem regular_node (htype : Mapping.get? entries "type" = some (.str type))
    (hknown : Mapping.get? nodeFields type = some fields)
    (h : ∀ field ∈ fields, ∃ v, Mapping.get? entries field.1 = some v ∧ field.2.Read bindings v) :
    Regular bindings (.map entries) := by
  replace hknown := Mapping.mem_of_get? hknown
  -- one case for each type, in the order of the table
  simp only [nodeFields, List.mem_cons, Prod.mk.injEq, List.not_mem_nil, or_false] at hknown
  obtain ⟨rfl, rfl⟩ | ⟨rfl, rfl⟩ | ⟨rfl, rfl⟩ | ⟨rfl, rfl⟩ | ⟨rfl, rfl⟩ | ⟨rfl, rfl⟩ | ⟨rfl, rfl⟩ | ⟨rfl, rfl⟩ |
    ⟨rfl, rfl⟩ | ⟨rfl, rfl⟩ | ⟨rfl, rfl⟩ | ⟨rfl, rfl⟩ | ⟨rfl, rfl⟩ | ⟨rfl, rfl⟩ := hknown
  all_goals simp only [List.forall_mem_cons, List.not_mem_nil, false_implies, implies_true, and_true, Content.Read] at h
  · obtain ⟨_, hvalue, n, rfl⟩ := h
    exact (Evaluates.number htype hvalue).regular
  · obtain ⟨_, hvalue, s, rfl⟩ := h
    exact (Evaluates.text htype hvalue).regular
  · obtain ⟨_, hvalue, b, rfl⟩ := h
    exact (Evaluates.boolean htype hvalue).regular
  · exact (Evaluates.null htype).regular
  · obtain ⟨_, hname, word, rfl⟩ := h
    exact (Evaluates.name htype hname).regular
  · obtain ⟨⟨target, htarget, ih⟩, _, hname, word, rfl⟩ := h
    exact (Evaluates.member htype htarget hname ih).regular
  · obtain ⟨⟨target, htarget, ih⟩, place, hplace, ih'⟩ := h
    exact (Evaluates.index htype htarget hplace ih ih').regular
  · obtain ⟨⟨_, hname, word, rfl⟩, _, hargs, items, rfl, ih⟩ := h
    exact (Evaluates.call htype hname hargs ih).regular
  · obtain ⟨⟨_, hoperator, symbol, hsymbol, rfl⟩, operand, hoperand, ih⟩ := h
    obtain ⟨op, rfl⟩ := exists_unary hsymbol
    exact (Evaluates.unary htype hoperator hoperand ih).regular
  · obtain ⟨⟨_, hoperator, symbol, hsymbol, rfl⟩, ⟨left, hleft, ih⟩, right, hright, ih'⟩ := h
    obtain ⟨op, -, rfl⟩ := List.mem_map.mp hsymbol
    exact (Evaluates.binary htype hoperator hleft hright ih ih').regular
  · obtain ⟨⟨_, hoperator, symbol, hsymbol, rfl⟩, ⟨left, hleft, ih⟩, right, hright, ih'⟩ := h
    obtain ⟨op, rfl⟩ := exists_logical hsymbol
    exact (Evaluates.logical htype hoperator hleft hright ih ih').regular
  · obtain ⟨⟨test, htest, ih⟩, ⟨whenTrue, htrue, ih'⟩, whenFalse, hfalse, ih''⟩ := h
    exact (Evaluates.conditional htype htest htrue hfalse ih ih' ih'').regular
  · obtain ⟨_, helements, items, rfl, ih⟩ := h
    exact (Evaluates.list htype helements ih).regular
  · obtain ⟨_, hentries, items, rfl, ih⟩ := h
    choose! key value hitems ih using ih
    exact (Evaluates.map htype hentries hitems ih).regular

theorem Complete.read {content : Content} {d : Value} (h : Complete content d) : content.Read bindings d := by
  induction h with
  | number n => exact ⟨n, rfl⟩
  | text s => exact ⟨s, rfl⟩
  | boolean b => exact ⟨b, rfl⟩
  | operator h => exact ⟨_, h, rfl⟩
  | node htype hknown hfields h ih =>
    refine regular_node htype hknown fun field hmem => ?_
    obtain ⟨v, hv⟩ := Option.isSome_iff_exists.mp (hfields field hmem)
    exact ⟨v, hv, ih field hmem v hv⟩
  | nodes h ih => exact ⟨_, rfl, ih⟩
  | entry hkey hvalue h ih => exact ⟨_, _, ⟨_, rfl, hkey, hvalue⟩, ih⟩
  | entries h ih => exact ⟨_, rfl, ih⟩

end Rules

theorem complete_node {type : String} {fields : Mapping String Content} {values : Mapping String Value}
    (hknown : Mapping.get? nodeFields type = some fields)
    (h : ∀ field ∈ fields, ∃ v, Mapping.get? (("type", .str type) :: values) field.1 = some v ∧ Complete field.2 v) :
    Complete .node (node type values) := by
  refine .node (Environment.get?_ofNamed _ "type") hknown (fun field hmem => ?_) (fun field hmem v hv => ?_)
  · obtain ⟨v, hv, -⟩ := h field hmem
    rw [Mapping.has, Environment.get?_ofNamed, hv]
    rfl
  · obtain ⟨w, hw, hcomplete⟩ := h field hmem
    rw [Environment.get?_ofNamed, hw] at hv
    cases hv
    exact hcomplete

theorem complete_toDocument (e : Expr) : Complete .node e.toDocument := by
  induction e using Expr.induct with
  | numeral n => exact complete_node rfl (by simp [Mapping.get?_cons, Complete.number])
  | text s => exact complete_node rfl (by simp [Mapping.get?_cons, Complete.text])
  | boolean b => exact complete_node rfl (by simp [Mapping.get?_cons, Complete.boolean])
  | null => exact complete_node rfl (by simp)
  | name word => exact complete_node rfl (by simp [Mapping.get?_cons, Complete.text])
  | member target word ih =>
    exact complete_node rfl (by simp [Mapping.get?_cons, Complete.text, ih])
  | index target place ihtarget ihplace =>
    exact complete_node rfl (by simp [Mapping.get?_cons, ihtarget, ihplace])
  | call word arguments ih =>
    have harguments : Complete .nodes (.list (documents arguments)) := by
      rw [documents_eq_map]
      exact .nodes (List.forall_mem_map.mpr ih)
    exact complete_node rfl (by simp [Mapping.get?_cons, Complete.text, harguments])
  | unary op operand ih =>
    have hop : Complete (.operator ["!", "-", "+"]) (.str op.symbol) := .operator (by cases op <;> decide)
    exact complete_node rfl (by simp [Mapping.get?_cons, hop, ih])
  | binary op left right ihleft ihright =>
    have hop : Complete (.operator (BinaryOp.all.map BinaryOp.symbol)) (.str op.symbol) := by
      refine .operator (List.mem_map_of_mem ?_)
      cases op with
      | order c => cases c <;> decide
      | _ => decide
    exact complete_node rfl (by simp [Mapping.get?_cons, hop, ihleft, ihright])
  | logical op left right ihleft ihright =>
    have hop : Complete (.operator ["&&", "||"]) (.str op.symbol) := .operator (by cases op <;> decide)
    exact complete_node rfl (by simp [Mapping.get?_cons, hop, ihleft, ihright])
  | conditional test whenTrue whenFalse ihtest ihtrue ihfalse =>
    exact complete_node rfl (by simp [Mapping.get?_cons, ihtest, ihtrue, ihfalse])
  | list items ih =>
    have hitems : Complete .nodes (.list (documents items)) := by
      rw [documents_eq_map]
      exact .nodes (List.forall_mem_map.mpr ih)
    exact complete_node rfl (by simp [Mapping.get?_cons, hitems])
  | map entries ih =>
    have hentries : Complete .entries (.list (entryDocuments entries)) := by
      rw [entryDocuments_eq_map]
      refine .entries (List.forall_mem_map.mpr fun entry hmem => ?_)
      exact .entry (Environment.get?_ofNamed _ "key") (Environment.get?_ofNamed _ "value") (ih entry hmem)
    exact complete_node rfl (by simp [Mapping.get?_cons, hentries])

theorem regular_toDocument (bindings : Environment) (e : Expr) : Regular bindings e.toDocument :=
  (complete_toDocument e).read

theorem mapM_map {ε α β γ : Type} {f : β → Except ε γ} {g : α → β} (items : List α) :
    (items.map g).mapM f = items.mapM fun a => f (g a) := by
  rw [List.mapM_map]
  rfl

theorem evalEntry_entryDocuments {bindings : Environment} {entries : List (String × Expr)}
    (h : ∀ entry ∈ entries, evalDocument (.map bindings) entry.2.toDocument = eval bindings entry.2) :
    evalEntry (.map bindings) (entryDocuments entries) = evalEntries bindings entries := by
  induction entries with
  | nil => rfl
  | cons entry entries ih =>
    obtain ⟨hfirst, hrest⟩ := List.forall_mem_cons.mp h
    have hkey := Environment.get?_ofNamed [("key", .str entry.1), ("value", entry.2.toDocument)] "key"
    have hvalue := Environment.get?_ofNamed [("key", .str entry.1), ("value", entry.2.toDocument)] "value"
    rw [entryDocuments, Value.record, evalEntry, evalField_of_get? hvalue, fieldOr_of_get? hkey, hfirst, ih hrest]
    rfl

theorem evalDocument_toDocument (bindings : Environment) (e : Expr) :
    evalDocument (.map bindings) e.toDocument = eval bindings e := by
  -- the rule for the document evaluates the parts of the document, which by induction have the values of the parts
  have field (fields : Mapping String Value) (key : String) := Environment.get?_ofNamed fields key
  induction e using Expr.induct with
  | numeral n => exact (Evaluates.number (field _ "type") (field _ "value")).evalDocument
  | text s => exact (Evaluates.text (field _ "type") (field _ "value")).evalDocument
  | boolean b => exact (Evaluates.boolean (field _ "type") (field _ "value")).evalDocument
  | null => exact (Evaluates.null (field _ "type")).evalDocument
  | name word => exact (Evaluates.name (field _ "type") (field _ "name")).evalDocument
  | member target word ih =>
    rw [eval, ← ih]
    exact (Evaluates.member (field _ "type") (field _ "target") (field _ "name") (regular_toDocument _ _)).evalDocument
  | index target place ih ih' =>
    rw [eval, ← ih, ← ih']
    exact (Evaluates.index (field _ "type") (field _ "target") (field _ "index") (regular_toDocument _ _)
      (regular_toDocument _ _)).evalDocument
  | call word arguments ih =>
    have harguments : (documents arguments).mapM (evalDocument (.map bindings)) = evalItems bindings arguments := by
      rw [documents_eq_map, mapM_map, mapM_congr ih, evalItems_eq_mapM]
    rw [eval, ← harguments]
    refine (Evaluates.call (field _ "type") (field _ "name") (field _ "args") ?_).evalDocument
    rw [documents_eq_map]
    exact List.forall_mem_map.mpr fun e _ => regular_toDocument _ e
  | unary op operand ih =>
    rw [eval, ← ih]
    exact (Evaluates.unary (field _ "type") (field _ "operator") (field _ "operand")
      (regular_toDocument _ _)).evalDocument
  | binary op left right ih ih' =>
    rw [eval, ← ih, ← ih']
    exact (Evaluates.binary (field _ "type") (field _ "operator") (field _ "left") (field _ "right")
      (regular_toDocument _ _) (regular_toDocument _ _)).evalDocument
  | logical op left right ih ih' =>
    rw [eval, ← ih, ← ih']
    exact (Evaluates.logical (field _ "type") (field _ "operator") (field _ "left") (field _ "right")
      (regular_toDocument _ _) (regular_toDocument _ _)).evalDocument
  | conditional test whenTrue whenFalse ih ih' ih'' =>
    rw [eval, ← ih, ← ih', ← ih'']
    exact (Evaluates.conditional (field _ "type") (field _ "test") (field _ "then") (field _ "else")
      (regular_toDocument _ _) (regular_toDocument _ _) (regular_toDocument _ _)).evalDocument
  | list items ih =>
    have hitems : (documents items).mapM (evalDocument (.map bindings)) = evalItems bindings items := by
      rw [documents_eq_map, mapM_map, mapM_congr ih, evalItems_eq_mapM]
    rw [eval, ← hitems]
    refine (Evaluates.list (field _ "type") (field _ "elements") ?_).evalDocument
    rw [documents_eq_map]
    exact List.forall_mem_map.mpr fun e _ => regular_toDocument _ e
  | map entries ih =>
    have htype := field [("type", .str "MapLiteral"), ("entries", .list (entryDocuments entries))] "type"
    have hentries := field [("type", .str "MapLiteral"), ("entries", .list (entryDocuments entries))] "entries"
    rw [eval, ← evalEntry_entryDocuments ih, toDocument, node, Value.record, evalDocument, fieldOr_of_get? htype]
    exact congrArg (fun r => do return Value.map (Mapping.ofEntries (← r))) (evalEntryField_of_get? hentries)

section Recognized

variable {target place left right : Value}

theorem recognized_of_declared {α : Type} {r : Evaluation α} (h : FailsIn Failure.Declared r) :
    FailsIn Failure.Recognized r :=
  h.mono fun _ => Failure.Declared.recognized

theorem recognized_escape {α : Type} (r : Except Cause α) : FailsIn Failure.Recognized (Evaluation.escape r) := by
  intro failure h
  obtain ⟨cause, -, rfl⟩ := mapError_eq_error.mp h
  trivial

theorem recognized_placeOf : FailsIn Failure.Recognized (placeOf place) := by
  unfold placeOf
  dsimp only
  split
  · exact .ok _
  · exact (recognized_escape _).bind fun text => .error trivial

theorem recognized_indexOf : FailsIn Failure.Recognized (indexOf target place) := by
  cases target with
  | map entries => exact (recognized_escape _).bind fun text => .ok _
  | list items => exact recognized_placeOf.bind fun i => .ok _
  | str s => exact recognized_placeOf.bind fun i => .ok _
  | _ => exact .error trivial

theorem recognized_sum : FailsIn Failure.Recognized (sum left right) := by
  unfold sum
  split
  · exact (recognized_escape _).bind fun text => .ok _
  · exact (recognized_escape _).bind fun text => .ok _
  · exact .ok _
  · exact .error trivial
  · split
    · exact recognized_of_declared (failsIn_arithmetic _)
    · exact .error trivial

theorem recognized_applyCall (word : String) (f : Builtin) (arguments : List Value) :
    FailsIn Failure.Recognized (applyCall word f arguments) := by
  intro failure h
  obtain ⟨cause, -, rfl⟩ := mapError_eq_error.mp h
  split <;> trivial

theorem Evaluates.recognized {bindings : Environment} {d : Value} {r : Evaluation Value} (h : Evaluates bindings d r) :
    FailsIn Failure.Recognized r := by
  induction h with
  | number _ _ => exact recognized_of_declared (failsIn_finite _)
  | text _ _ | boolean _ _ | null _ => exact .ok _
  | name _ _ => exact recognized_of_declared (failsIn_lookUp _)
  | member _ _ _ _ ih => exact ih.bind fun v => recognized_of_declared (failsIn_memberOf _)
  | index _ _ _ _ _ ih ih' => exact ih.bind fun v => ih'.bind fun w => recognized_indexOf
  | call _ _ _ _ ih =>
    split
    · exact .error trivial
    · exact (FailsIn.mapM ih).bind fun values => recognized_applyCall _ _ _
  | unary _ _ _ _ ih => exact ih.bind fun v => recognized_of_declared (failsIn_applyUnary _)
  | binary _ _ _ _ _ _ ih ih' =>
    exact ih.bind fun v => ih'.bind fun w =>
      failsIn_applyBinary _ (fun _ => Failure.Declared.recognized) fun _ _ => recognized_sum
  | @logical _ op _ _ _ _ _ _ _ _ _ _ ih ih' =>
    refine ih.bind fun v => ?_
    cases op with
    | and =>
      dsimp only
      split
      · exact ih'
      · exact .ok _
    | or =>
      dsimp only
      split
      · exact .ok _
      · exact ih'
  | conditional _ _ _ _ _ _ _ ih ih' ih'' =>
    refine ih.bind fun v => ?_
    split
    · exact ih'
    · exact ih''
  | list _ _ _ ih => exact (FailsIn.mapM ih).bind fun values => .ok _
  | map _ _ _ _ ih =>
    exact (FailsIn.mapM fun item hitem => (ih item hitem).bind fun v => .ok _).bind fun entries => .ok _

end Recognized

/-- A text that is parsed has a derivation of which the actions make its document. The document is complete at every
depth, the evaluator follows the rules on it, and does not give up on it. -/
theorem parsed_document_complete [CharNames] {source : String} {e : Expr} (h : parse source = .ok e)
    (bindings : Environment) :
    (∃ tree, deriveText source.toList = .ok tree ∧ assemble tree = some e.toDocument) ∧
      Complete .node e.toDocument ∧
      Evaluates bindings e.toDocument (eval bindings e) ∧ evalDocument (.map bindings) e.toDocument = eval bindings e ∧
      (∀ type, eval bindings e ≠ .error (.fault (.unknownNode type))) ∧
      ∀ symbol, eval bindings e ≠ .error (.fault (.unknownOperator symbol)) := by
  have hvalue := evalDocument_toDocument bindings e
  have hrules : Evaluates bindings e.toDocument (eval bindings e) := by
    rw [← hvalue]
    exact regular_toDocument bindings e
  exact ⟨assembled_of_parse h, complete_toDocument e, hrules, hvalue, fun type => hrules.recognized _,
    fun symbol => hrules.recognized _⟩

/-- Signs that are read as one terminal, words for operators, calls and literals side by side. -/
def medley : String :=
  "not a && -f(b, [1,]) >= {k: c.d}[0] or !x % 2 === y ? null : true"

def medleyExpr : Expr :=
  .conditional
    (.logical .or
      (.logical .and (.unary .not (.name "a"))
        (.binary (.order .ge)
          (.unary .negative (.call "f" [.name "b", .list [.numeral (.int 1)]]))
          (.index (.map [("k", .member (.name "c") "d")]) (.numeral (.int 0)))))
      (.binary .strictEqual (.binary .modulo (.unary .not (.name "x")) (.numeral (.int 2))) (.name "y")))
    .null (.boolean true)

theorem medley_complete : parse medley = .ok medleyExpr ∧ Complete .node medleyExpr.toDocument := by
  have hparse : parse medley = .ok medleyExpr := by cbv
  exact ⟨hparse, (parsed_document_complete hparse []).2.1⟩

end RoutineFlow.Expr
