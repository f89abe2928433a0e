import DistributedVector.Expr.Basic

/-!
# Splitting off operator products

Products of linear operators with vectors are not compiled. Where they are added or subtracted at
the top of an expression they are split off, so that `rest ± A x ± B y` becomes the rest and a list
of signed products. A leading product is split off as well: `A x - rest` is `-rest` and `A x`.
Products elsewhere stay in the rest and are refused when it is compiled.

## Main definitions

* `Sign`, `Product`
* `Expr.split` — the rest, if any, and the signed products
-/

namespace DistributedVector

/-- The sign of a summand. -/
inductive Sign
  | plus | minus
  deriving DecidableEq, Repr

namespace Sign

/-- The opposite sign. -/
def neg : Sign → Sign
  | plus => minus
  | minus => plus

/-- The sign as an integer. -/
def toInt : Sign → Int
  | plus => 1
  | minus => -1

/-- The sign as a double. -/
def toFloat : Sign → Float
  | plus => 1
  | minus => -1

@[simp] theorem toInt_neg (s : Sign) : s.neg.toInt = -s.toInt := by cases s <;> rfl

end Sign

/-- The product of a linear operator with a vector. -/
structure Product (ν : Type) where
  operator : LinearOperator
  vector : ν

namespace Expr

variable {ν : Type}

/-- The sign that an additive operator gives its right operand. -/
def additive? (tag : String) : Option Sign :=
  if tag = BinaryOp.add.tag then some .plus
  else if tag = BinaryOp.sub.tag then some .minus
  else none

/-- The product, if the expression is one. -/
def product? : Expr ν → Option (Product ν)
  | product a v => some ⟨a, v⟩
  | _ => none

/-- The rest of an expression, if any, and the products split off, in the order in which they are
applied. -/
def split : Expr ν → Option (Expr ν) × List (Sign × Product ν)
  | product a v => (none, [(.plus, ⟨a, v⟩)])
  | binary tag l r =>
    match additive? tag with
    | none => (some (binary tag l r), [])
    | some sign =>
      match r.product?, l.product? with
      | some p, _ =>
        let (rest, products) := l.split
        (rest, products ++ [(sign, p)])
      | none, some p =>
        let (rest, products) := r.split
        match sign with
        | .plus => (rest, (.plus, p) :: products)
        | .minus =>
          (rest.map (unary UnaryOp.neg.tag),
            (.plus, p) :: products.map fun q => (q.1.neg, q.2))
      | none, none => (some (binary tag l r), [])
  | e => (some e, [])

end Expr

end DistributedVector
