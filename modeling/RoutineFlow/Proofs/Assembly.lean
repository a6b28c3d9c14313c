import RoutineFlow.Proofs.Parsing

/-!
Documents made from derivations by actions, one for each rule, which are handed the items of their phrase with no type
to keep documents, texts and lists apart. What they make of a derivation is the document of its expression.
-/

namespace RoutineFlow.Expr

/-- Signs of operators, names and literals are items of a phrase; other tokens only hold it together. -/
def Terminal.isItem : Terminal → Bool
  | .numeral | .text | .name | .plus | .minus | .comparison | .product => true
  | _ => false

def Tree.isItem : Tree → Bool
  | .leaf token => token.terminal.isItem
  | .node _ _ => true

def leafItem [CharNames] (token : Token) : Option Value :=
  match token.terminal with
  | .numeral => (Literal.number token.text).toOption.map .num
  | .text => (Literal.text token.text).toOption.map fun cs => .str (String.ofList cs)
  | _ => some (.str (keyText token))

/-- What the action of a rule makes of its items. -/
def action (rule : Rule) (items : List Value) : Option Value :=
  match rule, items with
  | .conditional, [test, whenTrue, whenFalse] =>
    some (node "Conditional" [("test", test), ("then", whenTrue), ("else", whenFalse)])
  | .orWord, [left, right] | .orSign, [left, right] =>
    some (node "LogicalExpr" [("operator", .str "||"), ("left", left), ("right", right)])
  | .andWord, [left, right] | .andSign, [left, right] =>
    some (node "LogicalExpr" [("operator", .str "&&"), ("left", left), ("right", right)])
  | .notWord, [operand] | .bang, [operand] => some (node "UnaryExpr" [("operator", .str "!"), ("operand", operand)])
  | .negative, [sign, operand] | .positive, [sign, operand] =>
    some (node "UnaryExpr" [("operator", sign), ("operand", operand)])
  | .comparison, [left, sign, right] | .plus, [left, sign, right] | .minus, [left, sign, right]
  | .product, [left, sign, right] => some (node "BinaryExpr" [("operator", sign), ("left", left), ("right", right)])
  | .member, [target, word] => some (node "Member" [("target", target), ("name", word)])
  | .index, [target, place] => some (node "IndexExpr" [("target", target), ("index", place)])
  | .numeral, [v] => some (node "Number" [("value", v)])
  | .text, [v] => some (node "String" [("value", v)])
  | .trueWord, [] => some (node "Boolean" [("value", .bool true)])
  | .falseWord, [] => some (node "Boolean" [("value", .bool false)])
  | .nullWord, [] => some (node "Null" [])
  | .name, [word] => some (node "Name" [("name", word)])
  | .emptyCall, [word] => some (node "Call" [("name", word), ("args", .list [])])
  | .call, [word, arguments] => some (node "Call" [("name", word), ("args", arguments)])
  | .emptyList, [] => some (node "ArrayLiteral" [("elements", .list [])])
  | .list, [elements] => some (node "ArrayLiteral" [("elements", elements)])
  | .emptyMap, [] => some (node "MapLiteral" [("entries", .list [])])
  | .map, [entries] => some (node "MapLiteral" [("entries", entries)])
  | .argument, items | .argumentComma, items | .nextArgument, items | .entry, items | .entryComma, items
  | .nextEntry, items => some (.list items)
  | .arguments, [first, .list more] | .argumentsComma, [first, .list more] | .entries, [first, .list more]
  | .entriesComma, [first, .list more] => some (.list (first :: more))
  | .laterArgument, [.list more, last] | .laterEntry, [.list more, last] => some (.list (more ++ [last]))
  | .nameEntry, [key, value] | .textEntry, [key, value] => some (.record [("key", key), ("value", value)])
  | .whole, [inner] | .plainConditional, [inner] | .plainDisjunction, [inner] | .plainConjunction, [inner]
  | .plainNegation, [inner] | .plainComparison, [inner] | .plainSum, [inner] | .plainProduct, [inner]
  | .plainUnary, [inner] | .plainPostfix, [inner] | .group, [inner] => some inner
  | _, _ => none

mutual

/-- The document that the actions make of a derivation, from the leaves to the root. -/
def assemble [CharNames] : Tree → Option Value
  | .leaf token => leafItem token
  | .node rule children => do action rule (← assembleItems children)

def assembleItems [CharNames] : List Tree → Option (List Value)
  | [] => some []
  | tree :: rest =>
    if tree.isItem then do
      let item ← assemble tree
      return item :: (← assembleItems rest)
    else assembleItems rest

end

theorem documents_eq_map (items : List Expr) : documents items = items.map toDocument := by
  induction items with
  | nil => rfl
  | cons e items ih => rw [documents, ih, List.map_cons]

def entryDocument (entry : String × Expr) : Value :=
  .record [("key", .str entry.1), ("value", toDocument entry.2)]

theorem entryDocuments_eq_map (entries : List (String × Expr)) :
    entryDocuments entries = entries.map entryDocument := by
  induction entries with
  | nil => rfl
  | cons entry entries ih => rw [entryDocuments, ih, List.map_cons, entryDocument]

theorem assembleItems_of_item [CharNames] {tree : Tree} {rest : List Tree} (h : tree.isItem) : assembleItems
    (tree :: rest) = (do
    let item ← assemble tree
    return item :: (← assembleItems rest)) := by
  rw [assembleItems, if_pos h]

theorem assembleItems_of_phrase [CharNames] {tree : Tree} {rest : List Tree} {item : Option Value}
    (h : tree.isItem ∧ assemble tree = item) :
    assembleItems (tree :: rest) = (do return (← item) :: (← assembleItems rest)) := by
  rw [assembleItems_of_item h.1, h.2]

variable {token : Token} {rest : List Tree}

theorem assembleItems_joint [CharNames] (h : token.terminal.isItem = false) :
    assembleItems (.leaf token :: rest) = assembleItems rest := by
  rw [assembleItems, Tree.isItem, h]
  rfl

theorem assembleItems_word [CharNames] (h : token.terminal ∈ [Terminal.name, .plus, .minus, .comparison, .product]) :
    assembleItems (.leaf token :: rest) = (do return .str (keyText token) :: (← assembleItems rest)) := by
  have hitem : token.terminal.isItem := by
    revert h
    cases token.terminal <;> decide
  have hleaf : leafItem token = some (.str (keyText token)) := by
    revert h
    unfold leafItem
    cases token.terminal <;> simp
  rw [assembleItems, Tree.isItem, if_pos hitem, assemble, hleaf]
  rfl

/-- The actions make the document of a value of the derivation, if there is a value. -/
def Makes [CharNames] {α : Type} (tree : Tree) (x : Except Literal.Problem α) (f : α → Value) : Prop :=
  tree.isItem ∧ assemble tree = x.toOption.map f

theorem numeral_makes [CharNames] (h : token.terminal = .numeral) : Makes (.leaf token)
    (Literal.number token.text) .num := by
  refine ⟨by rw [Tree.isItem, h]; rfl, ?_⟩
  rw [assemble, leafItem, h]

theorem text_makes [CharNames] (h : token.terminal = .text) :
    Makes (.leaf token) (Literal.text token.text) fun cs => .str (String.ofList cs) := by
  refine ⟨by rw [Tree.isItem, h]; rfl, ?_⟩
  rw [assemble, leafItem, h]

section Shapes

variable {α β : Type} {rule : Rule} {left right inner : Tree} {x : Except Literal.Problem α}
  {y : Except Literal.Problem β} {f : α → Value} {g : β → Value} {sign opening closing : Token}

theorem passed_makes [CharNames] (haction : ∀ v, action rule [v] = some v) (hinner : Makes inner x f) :
    Makes (.node rule [inner]) x f := by
  refine ⟨rfl, ?_⟩
  rw [assemble, assembleItems_of_phrase hinner]
  cases x with
  | error problem => rfl
  | ok a => exact haction _

theorem one_makes [CharNames] {h : α → β} (haction : ∀ a, action rule [f a] = some (g (h a)))
    (hinner : Makes inner x f) : Makes (.node rule [inner]) (each h x) g := by
  refine ⟨rfl, ?_⟩
  rw [assemble, assembleItems_of_phrase hinner]
  cases x with
  | error problem => rfl
  | ok a => exact haction a

theorem prefixed_makes [CharNames] {h : α → β} (hsign : sign.terminal.isItem = false)
    (haction : ∀ a, action rule [f a] = some (g (h a))) (hright : Makes right x f) :
    Makes (.node rule [.leaf sign, right]) (each h x) g := by
  refine ⟨rfl, ?_⟩
  rw [assemble, assembleItems_joint hsign, assembleItems_of_phrase hright]
  cases x with
  | error problem => rfl
  | ok a => exact haction a

theorem suffixed_makes [CharNames] {h : α → β} (hsign : sign.terminal.isItem = false)
    (haction : ∀ a, action rule [f a] = some (g (h a))) (hleft : Makes left x f) :
    Makes (.node rule [left, .leaf sign]) (each h x) g := by
  refine ⟨rfl, ?_⟩
  rw [assemble, assembleItems_of_phrase hleft, assembleItems_joint hsign]
  cases x with
  | error problem => rfl
  | ok a => exact haction a

theorem enclosed_makes [CharNames] {h : α → β} (hopening : opening.terminal.isItem = false)
    (hclosing : closing.terminal.isItem = false) (haction : ∀ a, action rule [f a] = some (g (h a)))
    (hinner : Makes inner x f) : Makes (.node rule [.leaf opening, inner, .leaf closing]) (each h x) g := by
  refine ⟨rfl, ?_⟩
  rw [assemble, assembleItems_joint hopening, assembleItems_of_phrase hinner, assembleItems_joint hclosing]
  cases x with
  | error problem => rfl
  | ok a => exact haction a

theorem infix_makes [CharNames] {γ : Type} {h : α → β → γ} {k : γ → Value} (hsign : sign.terminal.isItem = false)
    (haction : ∀ a b, action rule [f a, g b] = some (k (h a b))) (hleft : Makes left x f) (hright : Makes right y g) :
    Makes (.node rule [left, .leaf sign, right]) (both h x y) k := by
  refine ⟨rfl, ?_⟩
  rw [assemble, assembleItems_of_phrase hleft, assembleItems_joint hsign, assembleItems_of_phrase hright]
  cases x with
  | error problem => rfl
  | ok a => cases y with
    | error problem => rfl
    | ok b => exact haction a b

theorem binary_makes [CharNames] {op : BinaryOp} {x y : Except Literal.Problem Expr}
    (hsign : sign.terminal ∈ [Terminal.plus, .minus, .comparison, .product]) (hop : op.symbol = keyText sign)
    (haction : ∀ a s b, action rule [a, s, b] = some (node "BinaryExpr" [("operator", s), ("left", a), ("right", b)]))
    (hleft : Makes left x toDocument) (hright : Makes right y toDocument) :
    Makes (.node rule [left, .leaf sign, right]) (both (.binary op) x y) toDocument := by
  refine ⟨rfl, ?_⟩
  rw [assemble, assembleItems_of_phrase hleft, assembleItems_word (List.mem_cons_of_mem _ hsign),
    assembleItems_of_phrase hright, ← hop]
  cases x with
  | error problem => rfl
  | ok a => cases y with
    | error problem => rfl
    | ok b => exact haction _ _ _

theorem signed_makes [CharNames] {op : UnaryOp} {x : Except Literal.Problem Expr}
    (hsign : sign.terminal ∈ [Terminal.plus, .minus]) (hop : op.symbol = keyText sign)
    (haction : ∀ s a, action rule [s, a] = some (node "UnaryExpr" [("operator", s), ("operand", a)]))
    (hright : Makes right x toDocument) : Makes (.node rule [.leaf sign, right]) (each (.unary op) x) toDocument := by
  refine ⟨rfl, ?_⟩
  rw [assemble, assembleItems_word, assembleItems_of_phrase hright, ← hop]
  · cases x with
    | error problem => rfl
    | ok a => exact haction _ _
  · simp only [List.mem_cons, List.not_mem_nil, or_false] at hsign ⊢
    tauto

end Shapes

section Lists

variable {α : Type} {rule : Rule} {item more : Tree} {comma : Token} {x : Except Literal.Problem α}
  {xs : Except Literal.Problem (List α)} {f : α → Value}

def row (f : α → Value) (values : List α) : Value :=
  .list (values.map f)

theorem several_makes [CharNames]
    (haction : ∀ first more, action rule [first, .list more] = some (.list (first :: more)))
    (hitem : Makes item x f) (hmore : Makes more xs (row f)) :
    Makes (.node rule [item, more]) (both List.cons x xs) (row f) := by
  refine ⟨rfl, ?_⟩
  rw [assemble, assembleItems_of_phrase hitem, assembleItems_of_phrase hmore]
  cases x with
  | error problem => rfl
  | ok a => cases xs with
    | error problem => rfl
    | ok rest => exact haction _ _

theorem severalComma_makes [CharNames] (hcomma : comma.terminal.isItem = false)
    (haction : ∀ first more, action rule [first, .list more] = some (.list (first :: more)))
    (hitem : Makes item x f) (hmore : Makes more xs (row f)) :
    Makes (.node rule [item, more, .leaf comma]) (both List.cons x xs) (row f) := by
  refine ⟨rfl, ?_⟩
  rw [assemble, assembleItems_of_phrase hitem, assembleItems_of_phrase hmore, assembleItems_joint hcomma]
  cases x with
  | error problem => rfl
  | ok a => cases xs with
    | error problem => rfl
    | ok rest => exact haction _ _

theorem later_makes [CharNames] (hcomma : comma.terminal.isItem = false)
    (haction : ∀ more last, action rule [.list more, last] = some (.list (more ++ [last])))
    (hmore : Makes more xs (row f)) (hitem : Makes item x f) :
    Makes (.node rule [more, .leaf comma, item]) (both (fun rest a => rest ++ [a]) xs x) (row f) := by
  refine infix_makes hcomma (fun rest a => ?_) hmore hitem
  rw [row, haction, row, List.map_append, List.map_singleton]

end Lists

/-- The actions make of the derivation of a symbol the document of what it stands for, if it stands for anything. -/
def Assembles [CharNames] (tree : Tree) : Symbol → Prop
  | .terminal t => ∃ token, tree = .leaf token ∧ token.terminal = t ∧ Delivered token
  | .phrase .arguments | .phrase .moreArguments => Makes tree (argumentsOfTree tree) (row toDocument)
  | .phrase .entries | .phrase .moreEntries => Makes tree (entriesOfTree tree) (row entryDocument)
  | .phrase .entry => Makes tree (entryOfTree tree) entryDocument
  | .phrase _ => Makes tree (ofTree tree) toDocument

variable {children : List Tree}

theorem conditional_makes [CharNames] {test whenTrue whenFalse : Tree} {question colon : Token}
    (hquestion : question.terminal = .question) (hcolon : colon.terminal = .colon)
    (htest : Makes test (ofTree test) toDocument) (htrue : Makes whenTrue (ofTree whenTrue) toDocument)
    (hfalse : Makes whenFalse (ofTree whenFalse) toDocument) :
    Assembles (.node .conditional [test, .leaf question, whenTrue, .leaf colon, whenFalse]) (.phrase .conditional) := by
  refine ⟨rfl, ?_⟩
  rw [assemble, assembleItems_of_phrase htest, assembleItems_joint (by rw [hquestion]; rfl),
    assembleItems_of_phrase htrue, assembleItems_joint (by rw [hcolon]; rfl), assembleItems_of_phrase hfalse, ofTree]
  cases ofTree test with
  | error problem => rfl
  | ok a => cases ofTree whenTrue with
    | error problem => rfl
    | ok b => cases ofTree whenFalse <;> rfl

theorem member_makes [CharNames] {target : Tree} {dot word : Token} (hdot : dot.terminal = .dot)
    (hword : word.terminal = .name) (htarget : Makes target (ofTree target) toDocument) :
    Assembles (.node .member [target, .leaf dot, .leaf word]) (.phrase .suffixed) := by
  refine ⟨rfl, ?_⟩
  rw [assemble, assembleItems_of_phrase htarget, assembleItems_joint (by rw [hdot]; rfl),
    assembleItems_word (by simp [hword]), ofTree]
  cases ofTree target <;> rfl

theorem index_makes [CharNames] {target place : Tree} {opening closing : Token}
    (hopening : opening.terminal = .openBracket) (hclosing : closing.terminal = .closeBracket)
    (htarget : Makes target (ofTree target) toDocument) (hplace : Makes place (ofTree place) toDocument) :
    Assembles (.node .index [target, .leaf opening, place, .leaf closing]) (.phrase .suffixed) := by
  refine ⟨rfl, ?_⟩
  rw [assemble, assembleItems_of_phrase htarget, assembleItems_joint (by rw [hopening]; rfl),
    assembleItems_of_phrase hplace, assembleItems_joint (by rw [hclosing]; rfl), ofTree]
  cases ofTree target with
  | error problem => rfl
  | ok a => cases ofTree place <;> rfl

theorem call_makes [CharNames] {arguments : Tree} {word opening closing : Token} (hword : word.terminal = .name)
    (hopening : opening.terminal = .openParen) (hclosing : closing.terminal = .closeParen)
    (harguments : Makes arguments (argumentsOfTree arguments) (row toDocument)) :
    Assembles (.node .call [.leaf word, .leaf opening, arguments, .leaf closing]) (.phrase .atom) := by
  refine ⟨rfl, ?_⟩
  rw [assemble, assembleItems_word (by simp [hword]), assembleItems_joint (by rw [hopening]; rfl),
    assembleItems_of_phrase harguments, assembleItems_joint (by rw [hclosing]; rfl), ofTree]
  cases argumentsOfTree arguments with
  | error problem => rfl
  | ok values =>
    change some (node "Call" [("name", .str (keyText word)), ("args", row toDocument values)]) = _
    rw [row, ← documents_eq_map]
    rfl

theorem Delivered.keyText_eq {word : List Char} (h : Delivered token) (hmark : token.terminal ∈ Terminal.punctuation)
    (hword : token.terminal.signs = [word]) : keyText token = String.ofList word := by
  have htext := h.mem_signs hmark
  rw [hword] at htext
  rw [keyText, List.mem_singleton.mp htext]

theorem assembles_node [CharNames] (rule : Rule) (h : List.Forall₂ Assembles children rule.body) :
    Assembles (.node rule children) (.phrase rule.head) := by
  -- the body of each rule says how many trees there are, and which of them are tokens
  cases rule
  case whole | plainConditional | plainDisjunction | plainConjunction | plainNegation
      | plainComparison | plainSum | plainProduct | plainUnary | plainPostfix =>
    obtain _ | ⟨hinner, _ | _⟩ := h
    exact passed_makes (fun _ => rfl) hinner
  case conditional =>
    obtain _ | ⟨htest, _ | ⟨⟨question, rfl, hquestion, _⟩, _ | ⟨htrue, _ | ⟨⟨colon, rfl, hcolon, _⟩,
      _ | ⟨hfalse, _ | _⟩⟩⟩⟩⟩ := h
    exact conditional_makes hquestion hcolon htest htrue hfalse
  case orWord | orSign | andWord | andSign =>
    obtain _ | ⟨hleft, _ | ⟨⟨sign, rfl, hsign, _⟩, _ | ⟨hright, _ | _⟩⟩⟩ := h
    exact infix_makes (by rw [hsign]; rfl) (fun _ _ => rfl) hleft hright
  case notWord | bang =>
    obtain _ | ⟨⟨sign, rfl, hsign, _⟩, _ | ⟨hright, _ | _⟩⟩ := h
    exact prefixed_makes (by rw [hsign]; rfl) (fun _ => rfl) hright
  case comparison | product =>
    obtain _ | ⟨hleft, _ | ⟨⟨sign, rfl, hsign, hread⟩, _ | ⟨hright, _ | _⟩⟩⟩ := h
    exact binary_makes (by simp [hsign]) (hread.symbol_operator (by simp [hsign])) (fun _ _ _ => rfl) hleft hright
  case plus | minus =>
    obtain _ | ⟨hleft, _ | ⟨⟨sign, rfl, hsign, hread⟩, _ | ⟨hright, _ | _⟩⟩⟩ := h
    have htext := hread.keyText_eq (by rw [hsign]; decide) (by rw [hsign]; rfl)
    exact binary_makes (by simp [hsign]) htext.symm (fun _ _ _ => rfl) hleft hright
  case negative | positive =>
    obtain _ | ⟨⟨sign, rfl, hsign, hread⟩, _ | ⟨hright, _ | _⟩⟩ := h
    have htext := hread.keyText_eq (by rw [hsign]; decide) (by rw [hsign]; rfl)
    exact signed_makes (by simp [hsign]) htext.symm (fun _ _ => rfl) hright
  case member =>
    obtain _ | ⟨htarget, _ | ⟨⟨dot, rfl, hdot, _⟩, _ | ⟨⟨word, rfl, hword, _⟩, _ | _⟩⟩⟩ := h
    exact member_makes hdot hword htarget
  case index =>
    obtain _ | ⟨htarget, _ | ⟨⟨opening, rfl, hopening, _⟩, _ | ⟨hplace, _ | ⟨⟨closing, rfl, hclosing, _⟩, _ | _⟩⟩⟩⟩ := h
    exact index_makes hopening hclosing htarget hplace
  case numeral =>
    obtain _ | ⟨⟨token, rfl, htoken, _⟩, _ | _⟩ := h
    refine one_makes (fun _ => rfl) (numeral_makes htoken)
  case text =>
    obtain _ | ⟨⟨token, rfl, htoken, _⟩, _ | _⟩ := h
    refine one_makes (fun _ => rfl) (text_makes htoken)
  case trueWord | falseWord | nullWord =>
    obtain _ | ⟨⟨token, rfl, htoken, _⟩, _ | _⟩ := h
    refine ⟨rfl, ?_⟩
    rw [assemble, assembleItems_joint (by rw [htoken]; rfl)]
    rfl
  case name =>
    obtain _ | ⟨⟨token, rfl, htoken, _⟩, _ | _⟩ := h
    refine ⟨rfl, ?_⟩
    rw [assemble, assembleItems_word (by simp [htoken])]
    rfl
  case emptyCall =>
    obtain _ | ⟨⟨word, rfl, hword, _⟩, _ | ⟨⟨opening, rfl, hopening, _⟩, _ | ⟨⟨closing, rfl, hclosing, _⟩, _ | _⟩⟩⟩ := h
    refine ⟨rfl, ?_⟩
    rw [assemble, assembleItems_word (by simp [hword]), assembleItems_joint (by rw [hopening]; rfl),
      assembleItems_joint (by rw [hclosing]; rfl)]
    rfl
  case call =>
    obtain _ | ⟨⟨word, rfl, hword, _⟩, _ | ⟨⟨opening, rfl, hopening, _⟩, _ | ⟨harguments,
      _ | ⟨⟨closing, rfl, hclosing, _⟩, _ | _⟩⟩⟩⟩ := h
    exact call_makes hword hopening hclosing harguments
  case emptyList | emptyMap =>
    obtain _ | ⟨⟨opening, rfl, hopening, _⟩, _ | ⟨⟨closing, rfl, hclosing, _⟩, _ | _⟩⟩ := h
    refine ⟨rfl, ?_⟩
    rw [assemble, assembleItems_joint (by rw [hopening]; rfl), assembleItems_joint (by rw [hclosing]; rfl)]
    rfl
  case list =>
    obtain _ | ⟨⟨opening, rfl, hopening, _⟩, _ | ⟨hitems, _ | ⟨⟨closing, rfl, hclosing, _⟩, _ | _⟩⟩⟩ := h
    refine enclosed_makes (by rw [hopening]; rfl) (by rw [hclosing]; rfl) (fun values => ?_) hitems
    rw [toDocument, documents_eq_map]
    rfl
  case map =>
    obtain _ | ⟨⟨opening, rfl, hopening, _⟩, _ | ⟨hentries, _ | ⟨⟨closing, rfl, hclosing, _⟩, _ | _⟩⟩⟩ := h
    refine enclosed_makes (by rw [hopening]; rfl) (by rw [hclosing]; rfl) (fun entries => ?_) hentries
    rw [toDocument, entryDocuments_eq_map]
    rfl
  case group =>
    obtain _ | ⟨⟨opening, rfl, hopening, _⟩, _ | ⟨hinner, _ | ⟨⟨closing, rfl, hclosing, _⟩, _ | _⟩⟩⟩ := h
    refine ⟨rfl, ?_⟩
    rw [assemble, assembleItems_joint (by rw [hopening]; rfl), assembleItems_of_phrase hinner,
      assembleItems_joint (by rw [hclosing]; rfl), ofTree]
    cases ofTree _ <;> rfl
  case argument | entry =>
    obtain _ | ⟨hfirst, _ | _⟩ := h
    exact one_makes (fun _ => rfl) hfirst
  case argumentComma | entryComma =>
    obtain _ | ⟨hfirst, _ | ⟨⟨comma, rfl, hcomma, _⟩, _ | _⟩⟩ := h
    exact suffixed_makes (by rw [hcomma]; rfl) (fun _ => rfl) hfirst
  case arguments | entries =>
    obtain _ | ⟨hfirst, _ | ⟨hmore, _ | _⟩⟩ := h
    exact several_makes (fun _ _ => rfl) hfirst hmore
  case argumentsComma | entriesComma =>
    obtain _ | ⟨hfirst, _ | ⟨hmore, _ | ⟨⟨comma, rfl, hcomma, _⟩, _ | _⟩⟩⟩ := h
    exact severalComma_makes (by rw [hcomma]; rfl) (fun _ _ => rfl) hfirst hmore
  case nextArgument | nextEntry =>
    obtain _ | ⟨⟨comma, rfl, hcomma, _⟩, _ | ⟨hlast, _ | _⟩⟩ := h
    exact prefixed_makes (by rw [hcomma]; rfl) (fun _ => rfl) hlast
  case laterArgument | laterEntry =>
    obtain _ | ⟨hmore, _ | ⟨⟨comma, rfl, hcomma, _⟩, _ | ⟨hlast, _ | _⟩⟩⟩ := h
    exact later_makes (by rw [hcomma]; rfl) (fun _ _ => rfl) hmore hlast
  case nameEntry =>
    obtain _ | ⟨⟨key, rfl, hkey, _⟩, _ | ⟨⟨colon, rfl, hcolon, _⟩, _ | ⟨hvalue, _ | _⟩⟩⟩ := h
    refine ⟨rfl, ?_⟩
    rw [assemble, assembleItems_word (by simp [hkey]), assembleItems_joint (by rw [hcolon]; rfl),
      assembleItems_of_phrase hvalue, entryOfTree]
    cases ofTree _ <;> rfl
  case textEntry =>
    obtain _ | ⟨⟨key, rfl, hkey, _⟩, _ | ⟨⟨colon, rfl, hcolon, _⟩, _ | ⟨hvalue, _ | _⟩⟩⟩ := h
    exact infix_makes (by rw [hcolon]; rfl) (fun _ _ => rfl) (text_makes hkey) hvalue

theorem Forest.assembles [CharNames] {trees : List Tree} {symbols : List Symbol} (h : Forest trees symbols)
    (hread : ∀ token ∈ Tree.tokensOf trees, Delivered token) : List.Forall₂ Assembles trees symbols := by
  induction h with
  | nil => exact .nil
  | leaf token _ ih =>
    simp only [Tree.tokensOf, Tree.tokens, List.cons_append, List.nil_append, List.forall_mem_cons] at hread
    exact .cons ⟨token, rfl, rfl, hread.1⟩ (ih hread.2)
  | node rule _ _ ihbody ih =>
    simp only [Tree.tokensOf, Tree.tokens, List.forall_mem_append] at hread
    exact .cons (assembles_node rule (ihbody hread.1)) (ih hread.2)

theorem assembled_of_parse [CharNames] {source : String} {e : Expr} (h : parse source = .ok e) :
    ∃ tree, deriveText source.toList = .ok tree ∧ assemble tree = some e.toDocument := by
  unfold parse at h
  split at h
  · cases h
  · rename_i tree hderive
    obtain ⟨tokens, hlexed, hforest, rfl⟩ := deriveText_eq_ok.mp hderive
    have hread : ∀ token ∈ Tree.tokensOf [tree], Delivered token := by
      rw [Tree.tokensOf_singleton]
      exact hlexed.delivered
    obtain _ | ⟨⟨-, hassemble⟩, -⟩ := hforest.assembles hread
    refine ⟨tree, hderive, ?_⟩
    cases hof : ofTree tree with
    | error problem => simp [hof, Except.mapError] at h
    | ok e' =>
      obtain rfl : e' = e := by simpa [hof, Except.mapError] using h
      rw [hassemble, hof]
      rfl

end RoutineFlow.Expr
