import DistributedVector.Proofs.Products
import Mathlib.Algebra.BigOperators.Group.List.Basic
import Mathlib.Tactic.Abel

/-!
# What is split off an expression

Splitting products off keeps the value of an expression, whatever vectors, scalars, products and all
operators other than sums, differences and negations stand for. Every product is found in what is
split off or in the rest. The rest has no product exactly if the expression is a sum or difference
of products and one expression without products, added and subtracted one at a time. All other
expressions are refused before anything is asked of a device.

## Main definitions

* `Valuation` — values of expressions in an abelian group
* `Interpretation`, `Interpretation.valuation` — the values that come from those of the parts
* `Expr.products` — the products anywhere in an expression
* `Expr.Summed` — products added to or subtracted from an expression without products

## Main results

* `Valuation.value_split` — the value
* `Expr.Splits.products` — the products
* `Expr.Splits.summed_iff` — the grammar
* `Store.assign_refused` — what is outside the grammar is refused
* `Expr.split_sound` — all together
-/

namespace DistributedVector

variable {ν G : Type}

/-- Values of expressions in an abelian group: sums, differences and negations have the values of
the operations of the group, everything else has any values. -/
structure Valuation (ν G : Type) [AddCommGroup G] where
  value : Expr ν → G
  add : ∀ l r, value (.binary BinaryOp.add.tag l r) = value l + value r
  sub : ∀ l r, value (.binary BinaryOp.sub.tag l r) = value l - value r
  neg : ∀ e, value (.unary UnaryOp.neg.tag e) = -value e

/-- What vectors, scalars, products and operators other than sums, differences and negations stand
for. -/
structure Interpretation (ν G : Type) where
  vector : ν → G
  scalar : Scalar → DataType → G
  unary : String → G → G
  binary : String → G → G → G
  call : Function → List G → G
  product : LinearOperator → ν → G

namespace Interpretation

variable [AddCommGroup G] (I : Interpretation ν G)

mutual

/-- The value of an expression, from those of its operands. -/
def value : Expr ν → G
  | .vector v => I.vector v
  | .scalar x t => I.scalar x t
  | .unary tag e => if tag = UnaryOp.neg.tag then -value e else I.unary tag (value e)
  | .binary tag l r =>
    if tag = BinaryOp.add.tag then value l + value r
    else if tag = BinaryOp.sub.tag then value l - value r
    else I.binary tag (value l) (value r)
  | .call g args => I.call g (valueOfArgs args)
  | .product a v => I.product a v

/-- The values of arguments. -/
def valueOfArgs : List (Expr ν) → List G
  | [] => []
  | e :: rest => value e :: valueOfArgs rest

end

/-- Every interpretation gives values to all expressions. -/
def valuation : Valuation ν G where
  value := I.value
  add l r := by rw [value, if_pos rfl]
  sub l r := by rw [value, if_neg (by decide), if_pos rfl]
  neg e := by rw [value, if_pos rfl]

end Interpretation

namespace Expr

mutual

/-- The products anywhere in an expression, one for each occurrence. -/
def products : Expr ν → List (Product ν)
  | vector _ | scalar _ _ => []
  | unary _ e => e.products
  | binary _ l r => l.products ++ r.products
  | call _ args => productsOfArgs args
  | product a v => [⟨a, v⟩]

/-- The products in arguments. -/
def productsOfArgs : List (Expr ν) → List (Product ν)
  | [] => []
  | e :: rest => e.products ++ productsOfArgs rest

end

mutual

/-- Formulas are the expressions in which no product occurs. -/
theorem isSome_formula?_iff : (e : Expr ν) → (e.formula?.isSome ↔ e.products = [])
  | vector _ | scalar _ _ | product _ _ => by simp [formula?, products]
  | unary _ e => by simp [formula?, products, isSome_formula?_iff e]
  | binary _ l r => by
    have hl := isSome_formula?_iff l
    have hr := isSome_formula?_iff r
    rw [products, List.append_eq_nil_iff, ← hl, ← hr, formula?]
    cases l.formula? <;> cases r.formula? <;> simp
  | call _ args => by simp [formula?, products, isSome_formulas?_iff args]

theorem isSome_formulas?_iff : (args : List (Expr ν)) →
    ((formulas? args).isSome ↔ productsOfArgs args = [])
  | [] => by simp [formulas?, productsOfArgs]
  | e :: rest => by
    have he := isSome_formula?_iff e
    have hrest := isSome_formulas?_iff rest
    rw [productsOfArgs, List.append_eq_nil_iff, ← he, ← hrest, formulas?]
    cases e.formula? <;> cases formulas? rest <;> simp

end

/-- Products added to or subtracted from an expression without products, or from one another. -/
inductive Summed : Expr ν → Prop
  | rest {e : Expr ν} (h : e.products = []) : Summed e
  | product (a : LinearOperator) (v : ν) : Summed (.product a v)
  | addProduct {e : Expr ν} (a : LinearOperator) (v : ν) (h : e.Summed) :
    Summed (.binary BinaryOp.add.tag e (.product a v))
  | subProduct {e : Expr ν} (a : LinearOperator) (v : ν) (h : e.Summed) :
    Summed (.binary BinaryOp.sub.tag e (.product a v))
  | productAdd {e : Expr ν} (a : LinearOperator) (v : ν) (h : e.Summed) :
    Summed (.binary BinaryOp.add.tag (.product a v) e)
  | productSub {e : Expr ν} (a : LinearOperator) (v : ν) (h : e.Summed) :
    Summed (.binary BinaryOp.sub.tag (.product a v) e)

/-- One side of a sum is a product, unless there is none in it. -/
theorem Summed.sides {tag : String} {l r : Expr ν} (h : (binary tag l r).Summed) :
    l.products = [] ∧ r.products = [] ∨ (∃ p, r.product? = some p) ∧ l.Summed ∨
      (∃ p, l.product? = some p) ∧ r.Summed := by
  cases h with
  | rest hnone => exact .inl (List.append_eq_nil_iff.mp hnone)
  | addProduct a v hl | subProduct a v hl => exact .inr (.inl ⟨⟨_, rfl⟩, hl⟩)
  | productAdd a v hr | productSub a v hr => exact .inr (.inr ⟨⟨_, rfl⟩, hr⟩)

/-- How expressions are split: the rest and the products of each. -/
inductive Splits : Expr ν → Option (Expr ν) → List (Sign × Product ν) → Prop
  | product (a : LinearOperator) (v : ν) : Splits (.product a v) none [(.plus, ⟨a, v⟩)]
  | behind {l : Expr ν} {rest : Option (Expr ν)} {products : List (Sign × Product ν)} {tag : String}
    {sign : Sign} (p : Product ν) (htag : additive? tag = some sign) (h : Splits l rest products) :
    Splits (.binary tag l (.product p.operator p.vector)) rest (products ++ [(sign, p)])
  | plus {r : Expr ν} {rest : Option (Expr ν)} {products : List (Sign × Product ν)} (p : Product ν)
    (hr : r.product? = none) (h : Splits r rest products) :
    Splits (.binary BinaryOp.add.tag (.product p.operator p.vector) r) rest ((.plus, p) :: products)
  | minus {r : Expr ν} {rest : Option (Expr ν)} {products : List (Sign × Product ν)} (p : Product ν)
    (hr : r.product? = none) (h : Splits r rest products) :
    Splits (.binary BinaryOp.sub.tag (.product p.operator p.vector) r)
      (rest.map (unary UnaryOp.neg.tag)) ((.plus, p) :: products.map fun q => (q.1.neg, q.2))
  | whole {e : Expr ν} (hproduct : e.product? = none)
    (hsides : ∀ tag sign l r, additive? tag = some sign → e = .binary tag l r →
      l.product? = none ∧ r.product? = none) : Splits e (some e) []

theorem additive?_eq_some {tag : String} {sign : Sign} (h : additive? tag = some sign) :
    tag = BinaryOp.add.tag ∧ sign = .plus ∨ tag = BinaryOp.sub.tag ∧ sign = .minus := by
  rw [additive?] at h
  split at h
  next htag =>
    cases h
    exact .inl ⟨htag, rfl⟩
  next =>
    split at h
    next htag =>
      cases h
      exact .inr ⟨htag, rfl⟩
    next => cases h

theorem product?_eq_some {e : Expr ν} {p : Product ν} (h : e.product? = some p) :
    e = .product p.operator p.vector := by
  cases e <;> cases h
  rfl

/-- Splitting takes an expression apart by the rules. -/
theorem splits_split (e : Expr ν) : e.Splits e.split.1 e.split.2 := by
  fun_induction Expr.split e with
  | case1 a v => exact .product a v
  | case2 tag l r htag =>
    refine .whole rfl fun tag' sign l' r' htag' h => ?_
    cases h
    cases htag.symm.trans htag'
  | case3 tag l r sign htag p hr rest products hsplit ih =>
    obtain rfl := product?_eq_some hr
    rw [hsplit] at ih
    exact .behind p htag ih
  | case4 tag l r p hl hr rest products hsplit htag ih =>
    obtain rfl := product?_eq_some hl
    rw [hsplit] at ih
    obtain ⟨rfl, -⟩ | ⟨-, h⟩ := additive?_eq_some htag
    · exact .plus p hr ih
    · cases h
  | case5 tag l r p hl hr rest products hsplit htag ih =>
    -- the product is taken from, so that signs behind it change
    obtain rfl := product?_eq_some hl
    rw [hsplit] at ih
    obtain ⟨-, h⟩ | ⟨rfl, -⟩ := additive?_eq_some htag
    · cases h
    · exact .minus p hr ih
  | case6 tag l r sign htag hl hr =>
    refine .whole rfl fun tag' sign' l' r' _ h => ?_
    cases h
    exact ⟨hl, hr⟩
  | case7 e hproduct hbinary =>
    have hnone : e.product? = none := by
      cases hp : e.product? with
      | none => rfl
      | some p => exact (hproduct _ _ (product?_eq_some hp)).elim
    exact .whole hnone fun tag sign l r _ h => (hbinary tag l r h).elim

/-- The signs are ones. -/
theorem sign_eq (s : Sign) : s.toFloat = 1 ∧ s.toInt = 1 ∨ s.toFloat = -1 ∧ s.toInt = -1 := by
  cases s
  · exact .inl ⟨rfl, rfl⟩
  · exact .inr ⟨rfl, rfl⟩

/-- No product is lost and none is made. -/
theorem Splits.products {e : Expr ν} {rest : Option (Expr ν)} {ps : List (Sign × Product ν)}
    (h : e.Splits rest ps) : e.products.Perm (rest.elim [] Expr.products ++ ps.map (·.2)) := by
  induction h with
  | product a v => rfl
  | behind p _ _ ih =>
    rw [Expr.products, Expr.products, List.map_append, ← List.append_assoc]
    exact ih.append_right _
  | plus p _ _ ih =>
    rw [Expr.products, Expr.products, List.singleton_append, List.map_cons]
    exact (ih.cons p).trans List.perm_middle.symm
  | @minus r rest ps p _ _ ih =>
    have hrest : (rest.map (unary UnaryOp.neg.tag)).elim [] Expr.products =
        rest.elim [] Expr.products := by cases rest <;> rfl
    rw [Expr.products, Expr.products, List.singleton_append, List.map_cons, hrest, List.map_map]
    exact (ih.cons p).trans List.perm_middle.symm
  | whole => rw [List.map_nil, List.append_nil]; rfl

/-- The rest has no product exactly if the expression is summed up of products and an expression
without products. -/
theorem Splits.summed_iff {e : Expr ν} {rest : Option (Expr ν)} {ps : List (Sign × Product ν)}
    (h : e.Splits rest ps) : (∀ r ∈ rest, r.products = []) ↔ e.Summed := by
  induction h with
  | product a v => exact iff_of_true nofun (.product a v)
  | @behind l rest ps tag sign p htag _ ih =>
    rw [ih]
    constructor
    · intro hl
      obtain ⟨rfl, -⟩ | ⟨rfl, -⟩ := additive?_eq_some htag
      · exact .addProduct _ _ hl
      · exact .subProduct _ _ hl
    · intro hsum
      -- either side may be the product that is split off, if both are products
      obtain ⟨-, hnone⟩ | ⟨-, hl⟩ | ⟨⟨q, hq⟩, -⟩ := hsum.sides
      · cases hnone
      · exact hl
      · exact product?_eq_some hq ▸ .product _ _
  | @plus r rest ps p hr _ ih =>
    rw [ih]
    constructor
    · exact .productAdd _ _
    · intro hsum
      obtain ⟨hnone, -⟩ | ⟨⟨q, hq⟩, -⟩ | ⟨-, hsum⟩ := hsum.sides
      · cases hnone
      · cases hr.symm.trans hq
      · exact hsum
  | @minus r rest ps p hr _ ih =>
    have hrest : (∀ e ∈ rest.map (unary UnaryOp.neg.tag), e.products = []) ↔
        ∀ e ∈ rest, e.products = [] := by cases rest <;> simp [Expr.products]
    rw [hrest, ih]
    constructor
    · exact .productSub _ _
    · intro hsum
      obtain ⟨hnone, -⟩ | ⟨⟨q, hq⟩, -⟩ | ⟨-, hsum⟩ := hsum.sides
      · cases hnone
      · cases hr.symm.trans hq
      · exact hsum
  | whole hproduct hsides =>
    constructor
    · exact fun h => .rest (h _ rfl)
    · rintro hsum _ ⟨⟩
      cases hsum with
      | rest hnone => exact hnone
      | product => cases hproduct
      | addProduct => cases (hsides _ _ _ _ rfl rfl).2
      | subProduct => cases (hsides _ .minus _ _ (by decide) rfl).2
      | productAdd => cases (hsides _ _ _ _ rfl rfl).1
      | productSub => cases (hsides _ .minus _ _ (by decide) rfl).1

end Expr

namespace Valuation

variable [AddCommGroup G] (val : Valuation ν G)

/-- The value of signed products. -/
def sum (ps : List (Sign × Product ν)) : G :=
  (ps.map fun q => q.1.toInt • val.value (.product q.2.operator q.2.vector)).sum

/-- The value of a rest, zero if there is none. -/
def rest (e : Option (Expr ν)) : G := e.elim 0 val.value

theorem sum_cons (q : Sign × Product ν) (ps : List (Sign × Product ν)) :
    val.sum (q :: ps) = q.1.toInt • val.value (.product q.2.operator q.2.vector) + val.sum ps :=
  List.sum_cons

theorem sum_append (ps qs : List (Sign × Product ν)) :
    val.sum (ps ++ qs) = val.sum ps + val.sum qs := by
  rw [sum, List.map_append, List.sum_append, sum, sum]

/-- Opposite signs give the opposite value. -/
theorem sum_neg (ps : List (Sign × Product ν)) :
    val.sum (ps.map fun q => (q.1.neg, q.2)) = -val.sum ps := by
  induction ps with
  | nil => exact neg_zero.symm
  | cons q ps ih => rw [List.map_cons, sum_cons, sum_cons, ih, Sign.toInt_neg, neg_zsmul, neg_add]

theorem rest_neg (e : Option (Expr ν)) :
    val.rest (e.map (Expr.unary UnaryOp.neg.tag)) = -val.rest e := by
  cases e with
  | none => exact neg_zero.symm
  | some e => exact val.neg e

/-- Splitting keeps the value. -/
theorem value_split {e : Expr ν} {rest : Option (Expr ν)} {ps : List (Sign × Product ν)}
    (h : e.Splits rest ps) : val.value e = val.rest rest + val.sum ps := by
  induction h with
  | product a v => simp [Valuation.rest, sum, Sign.toInt]
  | @behind l rest ps tag sign p htag _ ih =>
    obtain ⟨rfl, rfl⟩ | ⟨rfl, rfl⟩ := Expr.additive?_eq_some htag
    · rw [val.add, ih, sum_append, sum_cons]
      simp [sum, Sign.toInt, add_assoc]
    · rw [val.sub, ih, sum_append, sum_cons]
      simp [sum, Sign.toInt, add_assoc, sub_eq_add_neg]
  | plus p _ _ ih =>
    rw [val.add, ih, sum_cons]
    simp only [Sign.toInt, one_zsmul]
    abel
  | minus p _ _ ih =>
    -- what is subtracted changes its sign part by part
    rw [val.sub, ih, rest_neg, sum_cons, sum_neg]
    simp only [Sign.toInt, one_zsmul]
    abel
  | whole => simp [Valuation.rest, sum]

end Valuation

/-- Splitting keeps the value that comes from those of the parts. -/
theorem Interpretation.value_split [AddCommGroup G] (I : Interpretation ν G) (e : Expr ν) :
    I.value e = I.valuation.rest e.split.1 + I.valuation.sum e.split.2 :=
  I.valuation.value_split e.splits_split

namespace Store

/-- What is no sum of products and an expression without products is refused. Nothing has been asked
of a device then, and nothing has changed. -/
theorem assign_refused {S : Store} {v : VectorId} {d : Descriptor} {e : Expr VectorId}
    (hv : S.vectors[v]? = some d) (haccess : d.access ≠ .readOnly) (he : ¬ e.Summed) :
    (assign v (.expr e)).runFrom S = pure (.error (.expr .misplacedProduct), S) := by
  have hsplit := e.splits_split
  rcases he' : e.split with ⟨rest, ps⟩
  rw [he'] at hsplit
  -- the rest is there, has a product and so is no vector
  have hrest : ∃ r, rest = some r ∧ r.formula? = none := by
    by_contra hnone
    refine he (hsplit.summed_iff.mp fun r hr => ?_)
    rw [← Expr.isSome_formula?_iff, Option.isSome_iff_ne_none]
    exact fun h => hnone ⟨r, hr, h⟩
  obtain ⟨r, rfl, hr⟩ := hrest
  have hevaluate : (evaluate v r).runFrom S = pure (.error (.expr .misplacedProduct), S) := by
    simp only [evaluate, vector, Task.runFrom_bind, Task.runFrom_get, Program.pure_bind, hv,
      Task.runFrom_pure, if_neg haccess, orFault, Expr.formula, hr]
    rfl
  have hvector : ∀ w, r ≠ .vector w := by
    rintro w rfl
    cases hr
  simp only [assign, Operand.toExpr, orFault, Task.runFrom_bind, Except.mapError,
    Task.runFrom_ofExcept, Program.pure_bind, he', hevaluate]

end Store

/-- What is split off an expression. Whatever its vectors, scalars, products and operators other
than sums, differences and negations stand for, its value is that of the rest and the signed sum of
the products; the signs are ones; and its products are those of the rest and those that are split
off. The rest has no product exactly if the expression is a sum or difference of products and one
expression without products, added and subtracted one at a time. Everything else is refused before
anything is asked of a device. -/
theorem Expr.split_sound (e : Expr VectorId) :
    (∀ (G : Type) [AddCommGroup G] (val : Valuation VectorId G),
      val.value e = val.rest e.split.1 + val.sum e.split.2) ∧
    (∀ q ∈ e.split.2, q.1.toFloat = 1 ∧ q.1.toInt = 1 ∨ q.1.toFloat = -1 ∧ q.1.toInt = -1) ∧
    e.products.Perm (e.split.1.elim [] Expr.products ++ e.split.2.map (·.2)) ∧
    ((∀ r ∈ e.split.1, r.products = []) ↔ e.Summed) ∧
    (¬ e.Summed → ∀ (S : Store) (v : VectorId) (d : Descriptor), S.vectors[v]? = some d →
      d.access ≠ .readOnly →
      (Store.assign v (.expr e)).runFrom S = pure (.error (.expr .misplacedProduct), S) ∧
        (Fault.expr .misplacedProduct).kind = .type) :=
  ⟨fun _ _ val => val.value_split e.splits_split, fun q _ => sign_eq q.1, e.splits_split.products,
    e.splits_split.summed_iff,
    fun he _ _ _ hv haccess => ⟨Store.assign_refused hv haccess he, rfl⟩⟩

end DistributedVector
