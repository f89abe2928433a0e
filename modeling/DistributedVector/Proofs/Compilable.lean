import DistributedVector.Expr.Operand
import DistributedVector.Fault
import DistributedVector.Proofs.KernelText
import DistributedVector.Proofs.ShapeSource
import DistributedVector.Proofs.Summands

/-!
# Which expressions compile

Operator tags and data types in a tree are arbitrary. A kernel is refused for a product anywhere in
the tree, for a result or a leaf whose type devices do not support, or for a node whose tag is no
operator of the node's kind, wherever it stands. The first of these that applies decides, and if
none does there is a kernel. Trees that are built by operators and calls never have a wrong tag, and
over vectors of supported types they have no wrong leaf.

## Main definitions

* `Expr.Contains` — some node of an expression has a property
* `Expr.IsProduct`, `Expr.Unsupported`, `Expr.Mistagged` — the three kinds of nodes that are refused
* `Operand.Built` — operands made by operators and calls

## Main results

* `KernelSource.generate_cases` — the reason that decides, and a kernel if there is none
* `Operand.Built.clean` — what operators and calls make has neither wrong tags nor wrong leaves
* `KernelSource.generate_verdict` — all together
-/

namespace DistributedVector

variable {ν μ : Type}

namespace Expr

/-- Some node of an expression has a property: the root, or a node of an operand or an argument. -/
inductive Contains (P : Expr ν → Prop) : Expr ν → Prop
  | here {e : Expr ν} (h : P e) : Contains P e
  | operand {tag : String} {e : Expr ν} (h : Contains P e) : Contains P (.unary tag e)
  | left {tag : String} {l r : Expr ν} (h : Contains P l) : Contains P (.binary tag l r)
  | right {tag : String} {l r : Expr ν} (h : Contains P r) : Contains P (.binary tag l r)
  | arg {g : Function} {args : List (Expr ν)} {e : Expr ν} (he : e ∈ args) (h : Contains P e) :
    Contains P (.call g args)

/-- A product of a linear operator with a vector. -/
def IsProduct : Expr ν → Prop
  | product _ _ => True
  | _ => False

/-- A leaf of a type that devices do not support. -/
def Unsupported (typeOf : ν → DataType) : Expr ν → Prop
  | vector v => ¬ (typeOf v).isSupported
  | scalar _ t => ¬ t.isSupported
  | _ => False

/-- A node whose tag is no operator of the node's kind. -/
def Mistagged : Expr ν → Prop
  | unary tag _ => ∀ op : UnaryOp, tag ≠ op.tag
  | binary tag _ _ => ∀ op : BinaryOp, tag ≠ op.tag
  | _ => False

section

variable {P : Expr ν → Prop}

@[simp] theorem contains_vector_iff {v : ν} : (vector v).Contains P ↔ P (vector v) :=
  ⟨fun | .here h => h, .here⟩

@[simp] theorem contains_scalar_iff {x : Scalar} {t : DataType} :
    (scalar x t).Contains P ↔ P (scalar x t) :=
  ⟨fun | .here h => h, .here⟩

@[simp] theorem contains_product_iff {a : LinearOperator} {v : ν} :
    (product a v).Contains P ↔ P (product a v) :=
  ⟨fun | .here h => h, .here⟩

@[simp] theorem contains_unary_iff {tag : String} {e : Expr ν} :
    (unary tag e).Contains P ↔ P (unary tag e) ∨ e.Contains P := by
  constructor
  · intro h
    cases h with
    | here h => exact .inl h
    | operand h => exact .inr h
  · rintro (h | h)
    · exact .here h
    · exact .operand h

@[simp] theorem contains_binary_iff {tag : String} {l r : Expr ν} :
    (binary tag l r).Contains P ↔ P (binary tag l r) ∨ l.Contains P ∨ r.Contains P := by
  constructor
  · intro h
    cases h with
    | here h => exact .inl h
    | left h => exact .inr (.inl h)
    | right h => exact .inr (.inr h)
  · rintro (h | h | h)
    · exact .here h
    · exact .left h
    · exact .right h

@[simp] theorem contains_call_iff {g : Function} {args : List (Expr ν)} :
    (call g args).Contains P ↔ P (call g args) ∨ ∃ e ∈ args, e.Contains P := by
  constructor
  · intro h
    cases h with
    | here h => exact .inl h
    | arg he h => exact .inr ⟨_, he, h⟩
  · rintro (h | ⟨e, he, h⟩)
    · exact .here h
    · exact .arg he h

end

mutual

/-- There are no products exactly if no node is one. -/
theorem products_eq_nil_iff : (e : Expr ν) → (e.products = [] ↔ ¬ e.Contains IsProduct)
  | vector _ | scalar _ _ | product _ _ => by simp [products, IsProduct]
  | unary _ e => by simp [products, IsProduct, products_eq_nil_iff e]
  | binary _ l r => by simp [products, IsProduct, products_eq_nil_iff l, products_eq_nil_iff r]
  | call _ args => by simp [products, IsProduct, productsOfArgs_eq_nil_iff args]

theorem productsOfArgs_eq_nil_iff : (args : List (Expr ν)) →
    (productsOfArgs args = [] ↔ ∀ e ∈ args, ¬ e.Contains IsProduct)
  | [] => by simp [productsOfArgs]
  | e :: rest => by simp [productsOfArgs, products_eq_nil_iff e, productsOfArgs_eq_nil_iff rest]

end

mutual

/-- The formula of an expression is the expression. -/
theorem toExpr_of_formula? : (e : Expr ν) → ∀ {f : Formula ν}, e.formula? = some f → f.toExpr = e
  | vector _, _, h | scalar _ _, _, h => by
    cases h
    rfl
  | unary tag e, _, h => by
    obtain ⟨f, hf, rfl⟩ := Option.map_eq_some_iff.mp h
    rw [Formula.toExpr, toExpr_of_formula? e hf]
  | binary tag l r, _, h => by
    rw [formula?] at h
    split at h
    next fl fr hl hr =>
      cases h
      rw [Formula.toExpr, toExpr_of_formula? l hl, toExpr_of_formula? r hr]
    next => cases h
  | call g args, _, h => by
    obtain ⟨fs, hfs, rfl⟩ := Option.map_eq_some_iff.mp h
    rw [Formula.toExpr, toExprs_of_formulas? args hfs]
  | product _ _, _, h => by cases h

theorem toExprs_of_formulas? : (args : List (Expr ν)) → ∀ {fs : List (Formula ν)},
    formulas? args = some fs → Formula.toExprs fs = args
  | [], _, h => by
    cases h
    rfl
  | e :: rest, _, h => by
    rw [formulas?] at h
    split at h
    next f fs he hrest =>
      cases h
      rw [Formula.toExprs, toExpr_of_formula? e he, toExprs_of_formulas? rest hrest]
    next => cases h

end

end Expr

namespace Formula

mutual

/-- The leaves of a formula of unsupported types are those of the expression. -/
theorem exists_unsupported_iff (typeOf : ν → DataType) : (f : Formula ν) →
    ((∃ t ∈ (f.map typeOf).terminals, ¬ t.type.isSupported) ↔
      f.toExpr.Contains (Expr.Unsupported typeOf))
  | vector _ | scalar _ _ => by simp [map, terminals, toExpr, Expr.Unsupported, Terminal.type]
  | unary _ e => by
    rw [map, terminals, exists_unsupported_iff typeOf e]
    simp [toExpr, Expr.Unsupported]
  | binary _ l r => by
    simp only [map, terminals, List.mem_append, or_and_right, exists_or]
    rw [exists_unsupported_iff typeOf l, exists_unsupported_iff typeOf r]
    simp [toExpr, Expr.Unsupported]
  | call _ args => by
    rw [map, terminals, exists_unsupported_of_args_iff typeOf args]
    simp [toExpr, Expr.Unsupported]

theorem exists_unsupported_of_args_iff (typeOf : ν → DataType) : (args : List (Formula ν)) →
    ((∃ t ∈ terminalsOfArgs (mapArgs typeOf args), ¬ t.type.isSupported) ↔
      ∃ e ∈ toExprs args, e.Contains (Expr.Unsupported typeOf))
  | [] => by simp [mapArgs, terminalsOfArgs, toExprs]
  | e :: rest => by
    simp only [mapArgs, terminalsOfArgs, toExprs, List.mem_append, List.mem_cons, or_and_right,
      exists_or, exists_eq_left]
    rw [exists_unsupported_iff typeOf e, exists_unsupported_of_args_iff typeOf rest]

end

mutual

/-- There is nothing to show where a tag is no operator of its node's kind. -/
theorem reading?_eq_none_iff (typeOf : ν → μ) : (f : Formula ν) →
    ((f.map typeOf).reading? = none ↔ f.toExpr.Contains Expr.Mistagged)
  | vector _ | scalar _ _ => by simp [map, reading?, toExpr, Expr.Mistagged]
  | unary tag e => by
    have he := reading?_eq_none_iff typeOf e
    have htag : UnaryOp.ofTag? tag = none ↔ ∀ op : UnaryOp, tag ≠ op.tag := by
      simp [Option.eq_none_iff_forall_ne_some, UnaryOp.ofTag?_eq_some_iff]
    rw [toExpr, Expr.contains_unary_iff, ← he, Expr.Mistagged, ← htag, map, reading?]
    cases UnaryOp.ofTag? tag <;> cases (e.map typeOf).reading? <;> simp
  | binary tag l r => by
    have hl := reading?_eq_none_iff typeOf l
    have hr := reading?_eq_none_iff typeOf r
    have htag : BinaryOp.ofTag? tag = none ↔ ∀ op : BinaryOp, tag ≠ op.tag := by
      simp [Option.eq_none_iff_forall_ne_some, BinaryOp.ofTag?_eq_some_iff]
    rw [toExpr, Expr.contains_binary_iff, ← hl, ← hr, Expr.Mistagged, ← htag, map, reading?]
    cases BinaryOp.ofTag? tag <;> cases (l.map typeOf).reading? <;>
      cases (r.map typeOf).reading? <;> simp
  | call g args => by
    have hargs := readingsOfArgs?_eq_none_iff typeOf args
    rw [toExpr, Expr.contains_call_iff, ← hargs, map, reading?]
    cases readingsOfArgs? (mapArgs typeOf args) <;> simp [Expr.Mistagged]

theorem readingsOfArgs?_eq_none_iff (typeOf : ν → μ) : (args : List (Formula ν)) →
    (readingsOfArgs? (mapArgs typeOf args) = none ↔ ∃ e ∈ toExprs args, e.Contains Expr.Mistagged)
  | [] => by simp [mapArgs, readingsOfArgs?, toExprs]
  | e :: rest => by
    have he := reading?_eq_none_iff typeOf e
    have hrest := readingsOfArgs?_eq_none_iff typeOf rest
    simp only [toExprs, List.mem_cons, exists_eq_or_imp]
    rw [← he, ← hrest, mapArgs, readingsOfArgs?]
    cases (e.map typeOf).reading? <;> cases readingsOfArgs? (mapArgs typeOf rest) <;> simp

end

end Formula

theorem parametersFrom_types (first : Nat) (leaves : List (Terminal DataType)) :
    (parametersFrom first leaves).map Parameter.type = leaves.map Terminal.type := by
  induction leaves generalizing first with
  | nil => rfl
  | cons t rest ih => rw [parametersFrom, List.map_cons, List.map_cons, ih]

namespace Formula

/-- The parameters of unsupported types are for the leaves of unsupported types. -/
theorem exists_unsupported_parameter_iff (typeOf : ν → DataType) (f : Formula ν) :
    (∃ p ∈ (f.map typeOf).parameters, ¬ p.type.isSupported) ↔
      f.toExpr.Contains (Expr.Unsupported typeOf) := by
  have htypes := parametersFrom_types 1 (f.map typeOf).terminals
  calc
    (∃ p ∈ (f.map typeOf).parameters, ¬ p.type.isSupported) ↔
        ∃ t ∈ (f.map typeOf).parameters.map Parameter.type, ¬ t.isSupported := by simp
    _ ↔ ∃ t ∈ (f.map typeOf).terminals.map Terminal.type, ¬ t.isSupported := by
      rw [parameters, htypes]
    _ ↔ ∃ t ∈ (f.map typeOf).terminals, ¬ t.type.isSupported := by simp
    _ ↔ _ := f.exists_unsupported_iff typeOf

/-- A formula is lowered, or refused for a tag that is no operator of its node's kind. -/
theorem lower_cases (typeOf : ν → DataType) (f : Formula ν) :
    ¬ f.toExpr.Contains Expr.Mistagged ∧ (∃ term, (f.map typeOf).lower = .ok term) ∨
      f.toExpr.Contains Expr.Mistagged ∧ ∃ fault, (f.map typeOf).lower = .error fault := by
  rw [← f.reading?_eq_none_iff typeOf]
  cases hread : (f.map typeOf).reading? with
  | some r => exact .inl ⟨Option.some_ne_none r, exists_lower_iff.mpr ⟨r, hread⟩⟩
  | none =>
    cases hterm : (f.map typeOf).lower with
    | ok term =>
      obtain ⟨r, hr⟩ := exists_lower_iff.mp ⟨term, hterm⟩
      rw [hread] at hr
      cases hr
    | error fault => exact .inr ⟨rfl, fault, rfl⟩

end Formula

namespace KernelSource

theorem parameterText_cases (p : Parameter) :
    p.type.isSupported ∧ (∃ text, parameterText p = .ok text) ∨
      ¬ p.type.isSupported ∧ parameterText p = .error (.unsupportedType p.type) := by
  cases ht : p.type with
  | element t => exact .inl ⟨rfl, exists_parameterText (by simp [ht])⟩
  | foreign t =>
    rw [parameterText, ht]
    exact .inr ⟨by simp, rfl⟩

/-- The parameters of a signature are written out, or refused for a type that devices do not
support. -/
theorem mapM_parameterText_cases (params : List Parameter) :
    (∀ p ∈ params, p.type.isSupported) ∧ (∃ texts, params.mapM parameterText = .ok texts) ∨
      ∃ p ∈ params, ¬ p.type.isSupported ∧
        params.mapM parameterText = .error (.unsupportedType p.type) := by
  cases htexts : params.mapM parameterText with
  | ok texts =>
    refine .inl ⟨fun p hp => ?_, texts, rfl⟩
    obtain ⟨k, hk⟩ := List.getElem?_of_mem hp
    obtain ⟨text, -, htext⟩ := getElem?_of_forall₂ (mapM_eq_ok_iff.mp htexts) hk
    obtain ⟨hsupported, -⟩ | ⟨-, hrefused⟩ := parameterText_cases p
    · exact hsupported
    · cases htext.symm.trans hrefused
  | error fault =>
    obtain ⟨p, hp, htext⟩ := exists_of_mapM_eq_error htexts
    obtain ⟨-, text, hwritten⟩ | ⟨hunsupported, hrefused⟩ := parameterText_cases p
    · cases htext.symm.trans hwritten
    · cases htext.symm.trans hrefused
      exact .inr ⟨p, hp, hunsupported, rfl⟩

/-- The signature is written out, or refused for the type of the result or of a parameter. -/
theorem signature_cases (result : DataType) (params : List Parameter) :
    (result.isSupported ∧ ∀ p ∈ params, p.type.isSupported) ∧
        (∃ entries, signature result params = .ok entries) ∨
      (¬ result.isSupported ∨ ∃ p ∈ params, ¬ p.type.isSupported) ∧
        ∃ t, signature result params = .error (.unsupportedType t) := by
  cases result with
  | foreign t => exact .inr ⟨.inl (by simp), _, rfl⟩
  | element t =>
    obtain ⟨hparams, texts, htexts⟩ | ⟨p, hp, hptype, hparams⟩ := mapM_parameterText_cases params
    · exact .inl ⟨⟨rfl, hparams⟩, _, by rw [signature, htexts]; rfl⟩
    · exact .inr ⟨.inr ⟨p, hp, hptype⟩, _, by rw [signature, hparams]; rfl⟩

variable {typeOf : ν → DataType} {e : Expr ν} {result : DataType}

/-- Why there is no kernel, the first reason before the others; without a reason there is one. -/
theorem generate_cases (typeOf : ν → DataType) (e : Expr ν) (result : DataType) :
    e.Contains Expr.IsProduct ∧ generate typeOf e result = .error .misplacedProduct ∨
      ¬ e.Contains Expr.IsProduct ∧
        ((¬ result.isSupported ∨ e.Contains (Expr.Unsupported typeOf)) ∧
            (∃ t, generate typeOf e result = .error (.unsupportedType t)) ∨
          (result.isSupported ∧ ¬ e.Contains (Expr.Unsupported typeOf)) ∧
            (e.Contains Expr.Mistagged ∧ (∃ fault, generate typeOf e result = .error (.tag fault)) ∨
              ¬ e.Contains Expr.Mistagged ∧ ∃ source, generate typeOf e result = .ok source)) := by
  have hproducts := e.isSome_formula?_iff.trans e.products_eq_nil_iff
  cases hf : e.formula? with
  | none =>
    have hcontains : e.Contains Expr.IsProduct := by simpa [hf] using hproducts
    exact .inl ⟨hcontains, by rw [generate, Expr.formula, hf]; rfl⟩
  | some f =>
    have hproduct : ¬ e.Contains Expr.IsProduct := by simpa [hf] using hproducts
    have hexpr : f.toExpr = e := e.toExpr_of_formula? hf
    have hgenerate : generate typeOf e result = ofFormula (f.map typeOf) result := by
      rw [generate, Expr.formula, hf]
      rfl
    refine .inr ⟨hproduct, ?_⟩
    rw [hgenerate, ← hexpr, ← f.exists_unsupported_parameter_iff typeOf, ofFormula]
    -- the types of the signature are looked at before the operators of the body
    obtain ⟨⟨hresult, hparams⟩, entries, hentries⟩ | ⟨hbad, t, hentries⟩ :=
      signature_cases result (f.map typeOf).parameters
    · have hgood : ¬ ∃ p ∈ (f.map typeOf).parameters, ¬ p.type.isSupported := by
        rintro ⟨p, hp, hptype⟩
        exact hptype (hparams p hp)
      refine .inr ⟨⟨hresult, hgood⟩, ?_⟩
      rw [hentries]
      obtain ⟨htags, term, hterm⟩ | ⟨htags, fault, hterm⟩ := f.lower_cases typeOf
      · exact .inr ⟨htags, _, by rw [hterm]; rfl⟩
      · exact .inl ⟨htags, fault, by rw [hterm]; rfl⟩
    · exact .inl ⟨hbad, t, by rw [hentries]; rfl⟩

end KernelSource

/-! ## Operators and calls -/

namespace Operand

/-- Operands that operators and calls make of vectors, host values and linear operators. -/
inductive Built : Operand ν → Prop
  | vector (v : ν) : Built (.vector v)
  | host (x : HostValue) : Built (.host x)
  | operator (a : LinearOperator) : Built (.operator a)
  | unary {op : UnaryOp} {x y : Operand ν} (hx : Built x) (h : x.unary op = .ok y) : Built y
  | binary {op : BinaryOp} {l r y : Operand ν} (hl : Built l) (hr : Built r)
    (h : binary op l r = .ok y) : Built y
  | call {g : Function} {args : List (Operand ν)} {y : Operand ν} (hargs : ∀ x ∈ args, Built x)
    (h : call g args = .ok y) : Built y

/-- What an operand lifts to has neither wrong tags nor leaves of unsupported types, if the vectors
have element types. -/
def Clean (types : ν → ElementType) (x : Operand ν) : Prop :=
  ∀ e, x.toExpr = .ok e →
    ¬ e.Contains (Expr.Unsupported fun v => .element (types v)) ∧ ¬ e.Contains Expr.Mistagged

variable {types : ν → ElementType}

/-- A host value becomes a leaf of a supported type or none. -/
theorem clean_host (x : HostValue) : Clean types (host x) := by
  intro e he
  obtain ⟨⟨value, type⟩, hx, rfl⟩ := map_eq_ok_iff.mp he
  have htype : type.isSupported := by
    rcases x with n | y | ⟨t, y⟩ | b | s | s | ⟨b, own⟩ | _ | _ | _
    case typed =>
      rw [HostValue.terminal] at hx
      split at hx
      · cases hx
      · split at hx
        next hsupported =>
          cases hx
          exact hsupported
        next => cases hx
    all_goals cases hx <;> rfl
  simp [Expr.Unsupported, Expr.Mistagged, htype]

theorem Clean.unary {op : UnaryOp} {x y : Operand ν} (hx : Clean types x) (h : x.unary op = .ok y) :
    Clean types y := by
  cases x with
  | vector v =>
    cases h
    rintro e ⟨⟩
    simp [Expr.Unsupported, Expr.Mistagged]
  | expr e' =>
    cases h
    rintro e ⟨⟩
    simpa [Expr.Unsupported, Expr.Mistagged] using hx e' rfl
  | host x =>
    rw [Operand.unary] at h
    split at h
    · cases h
      exact clean_host _
    · cases h
  | operator a => cases h

theorem Clean.lifted {op : BinaryOp} {l r y : Operand ν} (hl : Clean types l) (hr : Clean types r)
    (h : binary.lifted op l r = .ok y) : Clean types y := by
  rw [binary.lifted] at h
  split at h
  next el er hel her =>
    cases h
    rintro e ⟨⟩
    simp [Expr.Unsupported, Expr.Mistagged, hl el hel, hr er her]
  next => cases h

/-- A product has no leaves of its own. -/
theorem clean_product (a : LinearOperator) (v : ν) : Clean types (expr (.product a v)) := by
  rintro e ⟨⟩
  simp [Expr.Unsupported, Expr.Mistagged]

theorem Clean.binary {op : BinaryOp} {l r y : Operand ν} (hl : Clean types l) (hr : Clean types r)
    (h : binary op l r = .ok y) : Clean types y := by
  rw [Operand.binary.eq_def] at h
  split at h
  · split at h
    · cases h
      exact clean_product _ _
    · cases h
  · split at h
    · cases h
      exact clean_product _ _
    · cases h
  · cases h
  · cases h
  · split at h
    · exact hl.lifted hr h
    · cases h

theorem Clean.call {g : Function} {args : List (Operand ν)} {y : Operand ν}
    (hargs : ∀ x ∈ args, Clean types x) (h : call g args = .ok y) : Clean types y := by
  rw [Operand.call] at h
  split at h
  · obtain ⟨es, hes, h⟩ := bind_eq_ok_iff.mp h
    cases h
    rintro e ⟨⟩
    have hall : ∀ e ∈ es, ¬ e.Contains (Expr.Unsupported fun v => .element (types v)) ∧
        ¬ e.Contains Expr.Mistagged := by
      intro e he
      obtain ⟨k, hk⟩ := List.getElem?_of_mem he
      obtain ⟨x, hx, hxe⟩ := getElem?_of_forall₂ (mapM_eq_ok_iff.mp hes).flip hk
      exact hargs x (List.mem_of_getElem? hx) e hxe
    simp only [Expr.contains_call_iff, Expr.Unsupported, Expr.Mistagged, false_or,
      not_exists, not_and]
    exact ⟨fun e he => (hall e he).1, fun e he => (hall e he).2⟩
  · cases h

/-- What operators and calls make of vectors of element types and of host values has neither wrong
tags nor leaves of unsupported types. -/
theorem Built.clean {x : Operand ν} (hx : x.Built) (types : ν → ElementType) : Clean types x := by
  induction hx with
  | vector v =>
    rintro e ⟨⟩
    simp [Expr.Unsupported, Expr.Mistagged]
  | host x => exact clean_host x
  | operator a => rintro e ⟨⟩
  | unary _ h ih => exact ih.unary h
  | binary _ _ h ihl ihr => exact ihl.binary ihr h
  | call _ h ih => exact Clean.call ih h

end Operand

/-- Which expressions compile, and which reason wins. Whatever the tags and types in a tree and the
type of the result are, a product anywhere is refused before anything else, then a result or a leaf
of a type that devices do not support, then a node whose tag is no operator of its kind; without any
of these there is a kernel. What operators and calls make of vectors and host values, without
products, has a kernel for every supported type of the result. -/
theorem KernelSource.generate_verdict (typeOf : ν → DataType) (e : Expr ν) (result : DataType) :
    (generate typeOf e result = .error .misplacedProduct ↔ e.Contains Expr.IsProduct) ∧
    ((∃ t, generate typeOf e result = .error (.unsupportedType t)) ↔
      ¬ e.Contains Expr.IsProduct ∧
        (¬ result.isSupported ∨ e.Contains (Expr.Unsupported typeOf))) ∧
    ((∃ fault, generate typeOf e result = .error (.tag fault)) ↔
      ¬ e.Contains Expr.IsProduct ∧ (result.isSupported ∧ ¬ e.Contains (Expr.Unsupported typeOf)) ∧
        e.Contains Expr.Mistagged) ∧
    ((∃ source, generate typeOf e result = .ok source) ↔
      ¬ e.Contains Expr.IsProduct ∧ (result.isSupported ∧ ¬ e.Contains (Expr.Unsupported typeOf)) ∧
        ¬ e.Contains Expr.Mistagged) ∧
    (ExprFault.misplacedProduct.kind = .type ∧ (∀ t, (ExprFault.unsupportedType t).kind = .type) ∧
      ∀ fault, (ExprFault.tag fault).kind = .name) ∧
    ∀ (x : Operand ν) (types : ν → ElementType) (r : ElementType), x.Built → x.toExpr = .ok e →
      ¬ e.Contains Expr.IsProduct →
      ∃ source, generate (fun v => .element (types v)) e (.element r) = .ok source := by
  have hbuilt : ∀ (x : Operand ν) (types : ν → ElementType) (r : ElementType), x.Built →
      x.toExpr = .ok e → ¬ e.Contains Expr.IsProduct →
      ∃ source, generate (fun v => .element (types v)) e (.element r) = .ok source := by
    intro x types r hx he hproduct
    obtain ⟨hleaves, htags⟩ := hx.clean types e he
    obtain ⟨h, -⟩ | ⟨-, ⟨h | h, -⟩ | ⟨-, ⟨h, -⟩ | ⟨-, h⟩⟩⟩ :=
      generate_cases (fun v => .element (types v)) e (.element r)
    · exact absurd h hproduct
    · exact absurd rfl h
    · exact absurd h hleaves
    · exact absurd h htags
    · exact h
  have hkinds : ExprFault.misplacedProduct.kind = .type ∧
      (∀ t, (ExprFault.unsupportedType t).kind = .type) ∧ ∀ fault,
      (ExprFault.tag fault).kind = .name :=
    ⟨rfl, fun _ => rfl, fun _ => rfl⟩
  -- in each case the outcome is known, and the other outcomes need what fails there
  obtain ⟨hp, h⟩ | ⟨hp, ⟨hu, t, h⟩ | ⟨hok, ⟨ht, fault, h⟩ | ⟨ht, source, h⟩⟩⟩ :=
    generate_cases typeOf e result
  · exact ⟨by simp [h, hp], by simp [h, hp], by simp [h, hp], by simp [h, hp], hkinds, hbuilt⟩
  · have hbad : ¬ (result.isSupported ∧ ¬ e.Contains (Expr.Unsupported typeOf)) := by tauto
    exact ⟨by simp [h, hp], ⟨fun _ => ⟨hp, hu⟩, fun _ => ⟨t, h⟩⟩,
      iff_of_false (by simp [h]) fun hall => hbad hall.2.1,
      iff_of_false (by simp [h]) fun hall => hbad hall.2.1, hkinds, hbuilt⟩
  · exact ⟨by simp [h, hp], by simp [h, hok], by simp [h, hp, hok, ht], by simp [h, ht],
      hkinds, hbuilt⟩
  · exact ⟨by simp [h, hp], by simp [h, hok], by simp [h, ht], by simp [h, hp, hok, ht],
      hkinds, hbuilt⟩

/-- The product in a call is refused although the result is a truth value and a tag is unknown;
without it the result is refused, and with a supported result the tag. The square root of a sum
compiles. -/
theorem KernelSource.generate_verdict_samples :
    let a := LinearOperator.diagonal "a" 1 1 #[2]
    let wrong : Expr Nat := .unary "add" (.vector 0)
    let sum : Operand Nat :=
      .expr (.binary "add" (.vector 0) (.scalar (.float 0) (.element .float64)))
    let root : Expr Nat := .call (.builtin .sqrt)
      [.binary "add" (.vector 0) (.scalar (.float 0) (.element .float64))]
    let types := fun _ : Nat => ElementType.float32
    let typeOf := fun v => DataType.element (types v)
    generate typeOf (.call (.builtin .pow) [wrong, .product a 0]) (.foreign .boolean) =
        .error .misplacedProduct ∧
      (∃ t, generate typeOf wrong (.foreign .boolean) = .error (.unsupportedType t)) ∧
      (∃ fault, generate typeOf wrong (.element .int8) = .error (.tag fault)) ∧
      Operand.binary .add (.vector 0) (.host (.float 0)) = .ok sum ∧
      Operand.call (.builtin .sqrt) [sum] = .ok (.expr root) ∧
      ∃ source, generate typeOf root (.element .float64) = .ok source := by
  intro a wrong sum root types typeOf
  have hsum : Operand.binary .add (.vector 0) (.host (.float 0)) = .ok sum := rfl
  have hroot : Operand.call (.builtin .sqrt) [sum] = .ok (.expr root) := rfl
  have hbuilt : Operand.Built (.expr root) :=
    .call (by simpa using .binary (.vector 0) (.host (.float 0)) hsum) hroot
  refine ⟨(generate_verdict typeOf _ _).1.mpr (by simp [Expr.IsProduct]),
    (generate_verdict typeOf _ _).2.1.mpr ⟨by simp [wrong, Expr.IsProduct], .inl (by simp)⟩,
    (generate_verdict typeOf _ _).2.2.1.mpr ⟨?_, ?_, .here ?_⟩, hsum, hroot,
    (generate_verdict typeOf _ (.element .float64)).2.2.2.2.2 _ types .float64 hbuilt rfl ?_⟩
  · simp [wrong, Expr.IsProduct]
  · simp [wrong, typeOf, Expr.Unsupported]
  · intro op
    cases op <;> decide
  · simp [root, Expr.IsProduct]

end DistributedVector
