import DistributedVector.Proofs.Aliasing
import DistributedVector.Proofs.Negation
import DistributedVector.Proofs.Promotion
import DistributedVector.Proofs.Settling

/-!
# A product minus a remainder

A product minus a vector is split into the opposite of the vector, which a kernel assigns first, and
the product, which is added to it. The opposite is computed in the type of the vector. For integers
it becomes a double when it is stored, whereas the difference of two vectors converts the integers
before it subtracts them. Both ways leave the same doubles for all types that are promoted to a
signed type, up to the sign of a zero. For the others the first way adds the complement of the
integer to a power of two, unless the integer is zero.

## Main definitions

* `Expr.productMinus`, `Expr.minus` — the two expressions
* `Plain.product` — what the product of an operator with a vector has at its first places
* `plusOpposite`, `minusInteger` — the doubles that the two ways leave

## Main results

* `Plain.assignAll_productMinus` — what assigning a product minus a vector leaves
* `Plain.assignAll_product_minus` — what assigning the product and subtracting the vector leaves
* `Reachable.assign_productMinus` — both, and when they agree
-/

namespace DistributedVector

/-- The product of an operator with a vector, minus a vector. -/
def Expr.productMinus {ν : Type} (a : LinearOperator) (x r : ν) : Expr ν :=
  .binary BinaryOp.sub.tag (.product a x) (.vector r)

/-- The difference of two vectors. -/
def Expr.minus {ν : Type} (z r : ν) : Expr ν := .binary BinaryOp.sub.tag (.vector z) (.vector r)

/-- The first `n` entries of the product of an operator with a vector. -/
def Plain.product (p : Plain) (a : LinearOperator) (x : VectorId) (n : Nat) :
    Option (List Float) := do
  let (_, xs) ← p.vectors[x]?
  (a.apply 1 (xs.map Scalar.toFloat).toArray n).map (·.toList.take n)

/-- A double plus an integer that has been negated in its own type. -/
def plusOpposite (t : ElementType) (a : Float) (n : Int) : Float := a + Float.ofInt (t.opposite n)

/-- A double minus an integer. -/
def minusInteger (a : Float) (n : Int) : Float := a - Float.ofInt n

variable {V : Type} {A : Arithmetic V} {number : ElementType → Scalar → V} {t : ElementType}
  {ps : List Float} {ns : List Int}

namespace Formula

variable {look : VectorId → Option (ElementType × List Scalar)} {z r : VectorId}

theorem valueAt_vector {xs : List Scalar} {i : Nat} {x : Scalar} (hr : look r = some (t, xs))
    (hx : xs[i]? = some x) : Terminal.valueAt A look i (.vector r) = some (A.load t x) := by
  simp [Terminal.valueAt, hr, hx]

/-- Opposites are computed in the type of the vector, and then converted to doubles. -/
theorem results_neg (hA : A.Promotes number) (hint : t.isFloat = false)
    (hr : look r = some (t, ns.map Scalar.int)) (hns : ∀ n ∈ ns, t.Opposable n) :
    A.byTree.results .float64 ns.length look (.unary UnaryOp.neg.tag (.vector r)) =
      some ((ns.map fun n => Float.ofInt (t.opposite n)).map Scalar.float) := by
  refine mapM_range_eq_some (by simp) fun i hi => ?_
  have hint' := t.isFloat_promoted.trans hint
  have hpromoted := (hns _ (List.getElem_mem hi)).promoted hint
  have hleaf := valueAt_vector (A := A) (i := i) hr (x := .int ns[i]) (by simp [hi])
  have hvalue : (Formula.unary UnaryOp.neg.tag (.vector r)).value A (Terminal.valueAt A look i) =
      some (number t.promoted (.int (t.opposite ns[i]))) := by
    -- the leaf has been promoted before it is negated
    rw [hA.load] at hleaf
    simp only [value, hleaf]
    exact congrArg some (hA.neg _ _ hint' t.promoted_promoted hpromoted.1 hpromoted.inRange_neg)
  rw [Arithmetic.byTree_at?, hvalue, Option.map_some, hA.storeInteger _ _ hint']
  simp [hi]

/-- Integers are converted to doubles before they are subtracted. -/
theorem results_minus (hA : A.Promotes number) (hint : t.isFloat = false)
    (hz : look z = some (.float64, ps.map Scalar.float)) (hr : look r = some (t, ns.map Scalar.int))
    (hlength : ps.length = ns.length) :
    A.byTree.results .float64 ns.length look (.binary BinaryOp.sub.tag (.vector z) (.vector r)) =
      some ((List.zipWith minusInteger ps ns).map Scalar.float) := by
  refine mapM_range_eq_some (by simp [hlength]) fun i hi => ?_
  have hi' : i < ps.length := hlength ▸ hi
  have hleaf := valueAt_vector (A := A) (i := i) hz (x := .float ps[i]) (by simp [hi'])
  have hleaf' := valueAt_vector (A := A) (i := i) hr (x := .int ns[i]) (by simp [hi])
  have hvalue : (Formula.binary BinaryOp.sub.tag (.vector z) (.vector r)).value A
      (Terminal.valueAt A look i) = some (number .float64 (.float (minusInteger ps[i] ns[i]))) := by
    rw [hA.load] at hleaf hleaf'
    simp only [value, hleaf, hleaf']
    exact congrArg some (hA.sub _ _ _ (t.isFloat_promoted.trans hint))
  rw [Arithmetic.byTree_at?, hvalue, Option.map_some, hA.storeDouble]
  simp [hi, hi']

end Formula

namespace Plain

variable {p q : Plain} {v z x r : VectorId} {a : LinearOperator} {ys : List Scalar}
  {bs : List Float}

/-- Doubles that are written over a vector of doubles. -/
theorem write_doubles {sum : Array Float} (hv : p.vectors[v]? = some (.float64, ys))
    (h : p.write v 0 ys.length (.row .float64 (sum.map Scalar.float)) = some q) :
    (sum.toList.take ys.length).length = ys.length ∧
      q = p.put v .float64 ((sum.toList.take ys.length).map Scalar.float) := by
  obtain ⟨t, ys', values, hv', -, hvalues, hsize, rfl⟩ := write_eq_some.mp h
  obtain ⟨rfl, rfl⟩ : ElementType.float64 = t ∧ ys = ys' := by simpa using hv.symm.trans hv'
  have hlist :=
    congrArg Array.toList (Except.ok.inj (hvalues.symm.trans (Store.elements_of_type rfl)))
  rw [Int.toNat_natCast] at hlist hsize
  have hvalues' : values.toList = (sum.toList.take ys.length).map Scalar.float := by
    rw [hlist, List.map_take]
    simp [HostData.row]
  have hlength : values.toList.length = ys.length := by rw [Array.length_toList, hsize]
  refine ⟨?_, ?_⟩
  · rw [← hlength, hvalues', List.length_map]
    simp
  · rw [Int.toNat_zero, overlay_zero_of_length hlength, hvalues']

/-- A product replaces the elements of a vector of doubles. -/
theorem applyProduct_replace (hv : p.vectors[v]? = some (.float64, ys))
    (h : p.applyProduct v ⟨a, x⟩ .plus false = some q) :
    ∃ ps, p.product a x ys.length = some ps ∧ ps.length = ys.length ∧
      q = p.put v .float64 (ps.map Scalar.float) := by
  obtain ⟨t, ys', s, xs, product, hv', hx, -, hproduct, hwrite⟩ := applyProduct_eq_some.mp h
  obtain ⟨rfl, rfl⟩ : ElementType.float64 = t ∧ ys = ys' := by simpa using hv.symm.trans hv'
  obtain ⟨hlength, hq⟩ := write_doubles hv hwrite
  refine ⟨_, ?_, hlength, hq⟩
  rw [Plain.product, hx]
  exact congrArg (Option.map _) hproduct

/-- A product is added to the elements of a vector of doubles. -/
theorem applyProduct_add (hv : p.vectors[v]? = some (.float64, bs.map Scalar.float))
    (h : p.applyProduct v ⟨a, x⟩ .plus true = some q) :
    ∃ ps, p.product a x bs.length = some ps ∧ ps.length = bs.length ∧
      q = p.put v .float64 ((List.zipWith (· + ·) ps bs).map Scalar.float) := by
  obtain ⟨t, ys, s, xs, product, hv', hx, -, hproduct, hwrite⟩ := applyProduct_eq_some.mp h
  obtain ⟨rfl, rfl⟩ : ElementType.float64 = t ∧ bs.map Scalar.float = ys := by
    simpa using hv.symm.trans hv'
  obtain ⟨hlength, hq⟩ := write_doubles hv hwrite
  have hbs : (bs.map Scalar.float).map Scalar.toFloat = bs := by
    simp [Function.comp_def, Scalar.toFloat]
  have hsum : (Store.addEntries product bs.toArray).toList.take bs.length =
      List.zipWith (· + ·) (product.toList.take bs.length) bs := by
    simp [Store.addEntries, List.take_zipWith]
  simp only [if_true, hbs, List.length_map, hsum] at hlength hq
  rw [List.length_map] at hproduct
  refine ⟨product.toList.take bs.length, ?_, ?_, hq⟩
  · rw [Plain.product, hx]
    exact congrArg (Option.map _) hproduct
  · rw [List.length_zipWith] at hlength
    have hle := List.length_take_le bs.length product.toList
    omega

/-- A formula that is more than a vector is evaluated. -/
theorem assignFormula_results {f : Formula VectorId} {zs : List Scalar}
    (hv : p.vectors[v]? = some (t, ys)) (hf : ∀ w, f ≠ .vector w)
    {E : Evaluation} (h : E.results t ys.length (p.vectors[·]?) f = some zs) :
    p.assignFormula E v f = some (p.put v t zs) := by
  unfold assignFormula
  split
  next w => exact absurd rfl (hf w)
  · simp [evaluate, hv, h]

/-- The remainder is negated and assigned first, and the product is added to it. -/
theorem assignAll_productMinus (hA : A.Promotes number) (hint : t.isFloat = false)
    (hv : p.vectors[v]? = some (.float64, ys)) (hr : p.vectors[r]? = some (t, ns.map Scalar.int))
    (hns : ∀ n ∈ ns, t.Opposable n) (hlength : ys.length = ns.length) (hne : x ≠ v)
    (h : p.assignAll A.byTree v (.productMinus a x r) = some q) :
    ∃ ps, p.product a x ns.length = some ps ∧
      q.vectors[v]? = some (.float64, (List.zipWith (plusOpposite t) ps ns).map Scalar.float) := by
  -- splitting has made the opposite of the vector the rest
  obtain ⟨p₁, hrest, hproducts⟩ := Option.bind_eq_some_iff.mp h
  have hresults : A.byTree.results .float64 ns.length (p.vectors[·]?)
      (.unary UnaryOp.neg.tag (.vector r)) = _ := Formula.results_neg hA hint hr hns
  rw [← hlength] at hresults
  have hevaluate : p.assignRest A.byTree v (Expr.productMinus a x r).split.1 = _ :=
    assignFormula_results hv (fun _ h => by cases h) hresults
  obtain rfl := Option.some_inj.mp (hevaluate.symm.trans hrest)
  obtain ⟨p₂, hproduct, hdone⟩ := Option.bind_eq_some_iff.mp hproducts
  obtain rfl := Option.some_inj.mp hdone
  obtain ⟨ps, hps, -, rfl⟩ :=
    applyProduct_add (getElem?_put_self (Array.getElem?_eq_some_iff.mp hv).1) hproduct
  rw [List.length_map, Plain.product, getElem?_put_of_ne (Ne.symm hne)] at hps
  refine ⟨ps, hps, ?_⟩
  rw [put_put, List.zipWith_map_right]
  exact getElem?_put_self (Array.getElem?_eq_some_iff.mp hv).1

/-- A product replaces what the vector holds. -/
theorem assignAll_product (hz : p.vectors[z]? = some (.float64, ys))
    (h : p.assignAll A.byTree z (.product a x) = some q) :
    ∃ ps, p.product a x ys.length = some ps ∧ ps.length = ys.length ∧
      q = p.put z .float64 (ps.map Scalar.float) := by
  have hproducts : p.applyProducts z false [(.plus, ⟨a, x⟩)] = some q := h
  obtain ⟨p₁, hproduct, hdone⟩ := Option.bind_eq_some_iff.mp hproducts
  obtain rfl := Option.some_inj.mp hdone
  exact applyProduct_replace hz hproduct

/-- The remainder is subtracted from doubles. -/
theorem assignAll_minus (hA : A.Promotes number) (hint : t.isFloat = false)
    (hv : p.vectors[v]? = some (.float64, ys))
    (hz : p.vectors[z]? = some (.float64, ps.map Scalar.float))
    (hr : p.vectors[r]? = some (t, ns.map Scalar.int)) (hlength : ys.length = ns.length)
    (hlength' : ps.length = ns.length) (h : p.assignAll A.byTree v (.minus z r) = some q) :
    q = p.put v .float64 ((List.zipWith minusInteger ps ns).map Scalar.float) := by
  have hresults : A.byTree.results .float64 ns.length (p.vectors[·]?)
      (.binary BinaryOp.sub.tag (.vector z) (.vector r)) = _ :=
        Formula.results_minus hA hint hz hr hlength'
  rw [← hlength] at hresults
  have hevaluate : p.assignAll A.byTree v (.minus z r) = _ :=
    (assignAll_of_formula? rfl).trans (assignFormula_results hv (fun _ h => by cases h) hresults)
  exact Option.some_inj.mp (h.symm.trans hevaluate)

/-- The product is assigned first, and the remainder is subtracted from it. -/
theorem assignAll_product_minus {zs : List Scalar} {q' : Plain} (hA : A.Promotes number)
    (hint : t.isFloat = false) (hv : p.vectors[v]? = some (.float64, ys))
    (hz : p.vectors[z]? = some (.float64, zs)) (hr : p.vectors[r]? = some (t, ns.map Scalar.int))
    (hlength : ys.length = ns.length) (hlength' : zs.length = ns.length) (hne : z ≠ v)
    (hne' : z ≠ r) (hproduct : p.assignAll A.byTree z (.product a x) = some q)
    (hminus : q.assignAll A.byTree v (.minus z r) = some q') :
    ∃ ps, p.product a x ns.length = some ps ∧ ps.length = ns.length ∧
      q.vectors[z]? = some (.float64, ps.map Scalar.float) ∧
      q'.vectors[v]? = some (.float64, (List.zipWith minusInteger ps ns).map Scalar.float) := by
  obtain ⟨ps, hps, hsize, rfl⟩ := assignAll_product hz hproduct
  rw [hlength'] at hps hsize
  have hz' : (p.put z .float64 (ps.map Scalar.float)).vectors[z]? =
      some (.float64, ps.map Scalar.float) :=
    getElem?_put_self (Array.getElem?_eq_some_iff.mp hz).1
  have hv' : (p.put z .float64 (ps.map Scalar.float)).vectors[v]? = some (.float64, ys) :=
    (getElem?_put_of_ne hne).trans hv
  obtain rfl :=
    assignAll_minus hA hint hv' hz' ((getElem?_put_of_ne hne').trans hr) hlength hsize hminus
  exact ⟨ps, hps, hsize, hz', getElem?_put_self (Array.getElem?_eq_some_iff.mp hv').1⟩

end Plain

section

variable {σ : Type} {h : Handler σ} {view : σ → Memory} {hardware : Hardware} {S S₁ S₂ S₃ : Store}
  {s s₁ s₂ s₃ : σ} {v z x r : VectorId} {d e c : Descriptor} {a : LinearOperator}

/-- A product minus a vector of integers, assigned at once and one after the other. With `ps` for
the product, both leave the same doubles where the promoted type is signed or the integer is zero.
Everywhere else the first way leaves what is larger by a power of two, before it is rounded. -/
theorem Reachable.assign_productMinus (meets : h.Meets view (deviceContract A fun _ _ _ => True))
    (hA : A.Promotes number) (hreach : Reachable h view (.unrestricted hardware) S s)
    (hv : S.vectors[v]? = some d) (hz : S.vectors[z]? = some e) (hr : S.vectors[r]? = some c)
    (hdoubles : d.type = .float64 ∧ e.type = .float64) (hint : c.type.isFloat = false)
    (hlayouts : e.layout = d.layout ∧ c.layout = d.layout) (hne : x ≠ v) (hne' : z ≠ v)
    (hns : c.contents (view s) = ns.map Scalar.int) (hopposable : ∀ n ∈ ns, c.type.Opposable n)
    (hproductMinus : ((Store.assign v (.expr (.productMinus a x r))).runFrom S).run h s =
      ((.ok (), S₁), s₁))
    (hproduct : ((Store.assign z (.expr (.product a x))).runFrom S).run h s = ((.ok (), S₂), s₂))
    (hminus : ((Store.assign v (.expr (.minus z r))).runFrom S₂).run h s₂ = ((.ok (), S₃), s₃)) :
    ∃ ps : List Float, ps.length = ns.length ∧
      (S₂.plain (view s₂)).vectors[z]? = some (.float64, ps.map Scalar.float) ∧
      (S₁.plain (view s₁)).vectors[v]? =
        some (.float64, (List.zipWith (plusOpposite c.type) ps ns).map Scalar.float) ∧
      (S₃.plain (view s₃)).vectors[v]? =
        some (.float64, (List.zipWith minusInteger ps ns).map Scalar.float) ∧
      ∀ n ∈ ns, (c.type.promoted.isSigned ∨ n = 0 →
          ∀ a, Binary64.Same (plusOpposite c.type a n) (minusInteger a n)) ∧
        (c.type.promoted.isSigned = false ∧ n ≠ 0 →
          ∀ a, plusOpposite c.type a n = a + Float.ofInt ((Nat.pow 2 c.type.bits : Nat) - n)) := by
  have hS := hreach.valid meets
  have hself := Store.Represents.self (view s) S
  have hlength : ∀ {w : VectorId} {f : Descriptor}, S.vectors[w]? = some f → f.layout = d.layout →
      (f.contents (view s)).length = ns.length := by
    intro w f hw hlayout
    have hsize := (hS.vectors r c hr).1.length_contents
    rw [hns, List.length_map] at hsize
    rw [(hS.vectors w f hw).1.length_contents, hsize, Descriptor.size_of_layout hlayout,
      Descriptor.size_of_layout hlayouts.2]
  have hvp := hself.getElem?_eq_some hv
  have hzp := hself.getElem?_eq_some hz
  have hrp := hself.getElem?_eq_some hr
  rw [hdoubles.1] at hvp
  rw [hdoubles.2] at hzp
  rw [hns] at hrp
  have hzr : z ≠ r := by
    rintro rfl
    obtain rfl := Option.some_inj.mp (hr.symm.trans hz)
    simp [hdoubles.2, ElementType.isFloat] at hint
  obtain ⟨-, e₁, he₁, -, p₁, hp₁, hrep₁⟩ :=
    (Store.assign_ensures hS hself).of_run_ok meets hproductMinus
  cases he₁
  obtain ⟨ps, hps, hfirst⟩ :=
    Plain.assignAll_productMinus hA hint hvp hrp hopposable (hlength hv rfl) hne
      (Plain.assignAll_byTree (by rintro rest f ⟨⟩ ⟨⟩; rfl) hp₁)
  obtain ⟨-, e₂, he₂, hS₂, p₂, hp₂, hrep₂⟩ :=
    (Store.assign_ensures hS hself).of_run_ok meets hproduct
  cases he₂
  obtain ⟨-, e₃, he₃, -, p₃, hp₃, hrep₃⟩ :=
    (Store.assign_ensures hS₂ hrep₂).of_run_ok meets hminus
  cases he₃
  obtain ⟨ps', hps', hsize, hz', hsecond⟩ := Plain.assignAll_product_minus hA hint hvp hzp hrp
    (hlength hv rfl) (hlength hz hlayouts.1) hne' hzr
    (Plain.assignAll_byTree (by rintro rest f ⟨⟩) hp₂)
    (Plain.assignAll_byTree (by rintro rest f ⟨⟩ ⟨⟩; rfl) hp₃)
  -- both ways have computed the same product
  obtain rfl := Option.some_inj.mp (hps.symm.trans hps')
  refine ⟨ps, hsize, ?_, ?_, ?_, fun n hn => ⟨fun hsigned a => ?_, fun hunsigned a => ?_⟩⟩
  · rw [Store.plain, ← hrep₂.vectors]
    exact hz'
  · rw [Store.plain, ← hrep₁.vectors]
    exact hfirst
  · rw [Store.plain, ← hrep₃.vectors]
    exact hsecond
  · have hopposite : c.type.opposite n = -n := by
      rcases hsigned with hsigned | rfl
      · exact ElementType.opposite_of_signed (hopposable n hn) hint hsigned
      · exact c.type.opposite_zero
    rw [plusOpposite, hopposite]
    exact Binary64.same_add_neg a n
  · rw [plusOpposite, ElementType.opposite_of_unsigned (hopposable n hn) hunsigned.1 hunsigned.2]

end

instance : DecidableEq Scalar
  | .int a, .int b => decidable_of_iff (a = b) (by simp)
  | .float a, .float b => decidable_of_iff (a = b) (by simp)
  | .int _, .float _ => isFalse (by simp)
  | .float _, .int _ => isFalse (by simp)

namespace Sample

/-- A world in which nothing fails, and devices compute with typed numbers. -/
def typed : World (ElementType × Scalar) := ⟨.typed, fun _ _ => none, fun _ => 0, fun _ _ => []⟩

/-- A run on a store and devices that settle before every call. -/
def typedRun {α : Type} (t : Task Store α) (s : Store × Queues) :
    (Except Fault α × Store) × Queues :=
  (t.runFrom s.1).run typed.prompt s.2

/-- The store and the devices after a task. -/
def typedAfter {α : Type} (t : Task Store α) (s : Store × Queues) : Store × Queues :=
  ((typedRun t s).1.2, (typedRun t s).2)

theorem typedRun_of_result {α : Type} {t : Task Store α} {s : Store × Queues} {a : α}
    (h : (typedRun t s).1.1.toOption = some a) :
    (t.runFrom s.1).run typed.prompt s.2 = ((.ok a, (typedAfter t s).1), (typedAfter t s).2) :=
  eq_of_result h

/-- Three elements of a type on both devices. -/
def threeOf (type : ElementType) : Operation :=
  .construct ⟨[0, 1], .count 3, none, .exact type, .readWrite, 0, some [0, 1, 3]⟩

/-- Two vectors of doubles to assign to, one to be multiplied, and unsigned integers to be
subtracted. -/
def operands : Store × Queues :=
  [threeOf .float64, threeOf .float64, threeOf .float64, threeOf .uint32,
    .set 2 (.int 1) (.float 3), .set 3 (.int 1) (.int 7)].foldl
      (fun s op => typedAfter op.run s) (store, Queues.start)

theorem reachable_operands :
    Reachable typed.prompt (·.settled .typed) (.unrestricted hardware) operands.1 operands.2 := by
  have hafter : ∀ {op : Operation} {s : Store × Queues},
      Reachable typed.prompt (·.settled .typed) (.unrestricted hardware) s.1 s.2 →
      op.Fits (s.1.plain (s.2.settled .typed)) → op.Uses (.unrestricted hardware) →
      Reachable typed.prompt (·.settled .typed) (.unrestricted hardware) (typedAfter op.run s).1
        (typedAfter op.run s).2 := fun h hfits huses => .operation h hfits huses rfl
  have hstore : Reachable typed.prompt (·.settled .typed) (.unrestricted hardware) store
      Queues.start :=
    .session {} (some .equally) (.start Queues.start) rfl (by simp)
  exact hafter (hafter (hafter (hafter (hafter (hafter hstore (Plain.offers_count _ _) trivial)
    (Plain.offers_count _ _) trivial) (Plain.offers_count _ _) trivial)
    (Plain.offers_count _ _) trivial)
    trivial trivial) trivial trivial

/-- The type and the layout of a vector, and what it holds. -/
theorem exists_operand (v : VectorId) (t : ElementType) (xs : List Scalar)
    (h : (operands.1.vectors[v]?).map (fun d =>
      (d.type, d.layout, d.contents (operands.2.settled .typed))) =
        some (t, [(0, 1), (1, 2)], xs)) :
    ∃ d, operands.1.vectors[v]? = some d ∧ d.type = t ∧ d.layout = [(0, 1), (1, 2)] ∧
      d.contents (operands.2.settled .typed) = xs := by
  obtain ⟨d, hd, hd'⟩ := Option.map_eq_some_iff.mp h
  simp only [Prod.mk.injEq] at hd'
  exact ⟨d, hd, hd'⟩

/-- The product minus the integers, assigned to the first vector. -/
def atOnce : Store × Queues :=
  typedAfter (Store.assign 0 (.expr (.productMinus scaling 2 3))) operands

/-- The product, assigned to the second vector. -/
def multiplied : Store × Queues := typedAfter (Store.assign 1 (.expr (.product scaling 2))) operands

/-- The product minus the integers, assigned to the first vector after the product has been assigned
to the second. -/
def subtracted : Store × Queues := typedAfter (Store.assign 0 (.expr (.minus 1 3))) multiplied

/-- What a vector holds. -/
def contents (s : Store × Queues) (v : VectorId) : Option (ElementType × List Scalar) :=
  (s.1.plain (s.2.settled .typed)).vectors[v]?

end Sample

/-- Three minus an unsigned seven, which is `4294967292` at once. -/
theorem Reachable.assign_productMinus_unsigned :
    (∃ ps, Sample.contents Sample.atOnce 0 =
        some (.float64, (List.zipWith (plusOpposite .uint32) ps [0, 7, 0]).map Scalar.float) ∧
      Sample.contents Sample.subtracted 0 =
        some (.float64, (List.zipWith minusInteger ps [0, 7, 0]).map Scalar.float)) ∧
    Sample.contents Sample.atOnce 0 = some (.float64, [.float 0, .float 4294967292, .float 0]) ∧
    Sample.contents Sample.subtracted 0 = some (.float64, [.float 0, .float (-4), .float 0]) := by
  have hproductMinus : ((Store.assign 0 (.expr (.productMinus Sample.scaling 2 3))).runFrom
      Sample.operands.1).run Sample.typed.prompt Sample.operands.2 =
        ((.ok (), Sample.atOnce.1), Sample.atOnce.2) :=
          Sample.typedRun_of_result (by decide +kernel)
  have hproduct : ((Store.assign 1 (.expr (.product Sample.scaling 2))).runFrom
      Sample.operands.1).run Sample.typed.prompt Sample.operands.2 =
        ((.ok (), Sample.multiplied.1), Sample.multiplied.2) :=
    Sample.typedRun_of_result (by decide +kernel)
  have hminus : ((Store.assign 0 (.expr (.minus 1 3))).runFrom
      Sample.multiplied.1).run Sample.typed.prompt Sample.multiplied.2 =
        ((.ok (), Sample.subtracted.1), Sample.subtracted.2) :=
    Sample.typedRun_of_result (by decide +kernel)
  obtain ⟨d, hv, hdouble, hlayout, -⟩ :=
    Sample.exists_operand 0 .float64 [.float 0, .float 0, .float 0] (by decide +kernel)
  obtain ⟨e, hz, hdouble', hlayout', -⟩ :=
    Sample.exists_operand 1 .float64 [.float 0, .float 0, .float 0] (by decide +kernel)
  obtain ⟨c, hr, htype, hlayout'', hns⟩ :=
    Sample.exists_operand 3 .uint32 ([0, 7, 0].map Scalar.int) (by decide +kernel)
  have hall := Reachable.assign_productMinus (Sample.typed.prompt_meets _)
    Arithmetic.typed_promotes Sample.reachable_operands hv hz hr ⟨hdouble, hdouble'⟩
      (by rw [htype]; rfl)
    ⟨hlayout'.trans hlayout.symm, hlayout''.trans hlayout.symm⟩ (by decide) (by decide) hns
    (by rw [htype]; decide) hproductMinus hproduct hminus
  rw [htype] at hall
  obtain ⟨ps, -, hproducts, hfirst, hsecond, -⟩ := hall
  refine ⟨⟨ps, hfirst, hsecond⟩, ?_⟩
  -- the products are what the second vector holds, and the two values follow from them
  have hmultiplied : Sample.contents Sample.multiplied 1 =
      some (.float64, [0, 3, 0].map Scalar.float) := by decide +kernel
  obtain rfl : ps = [0, 3, 0] := List.map_injective_iff.mpr (fun _ _ => Scalar.float.inj)
    (congrArg Prod.snd (Option.some_inj.mp (hproducts.symm.trans hmultiplied)))
  exact ⟨hfirst.trans (by decide +kernel), hsecond.trans (by decide +kernel)⟩

end DistributedVector
