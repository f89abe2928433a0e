import DistributedVector.Element.Text
import DistributedVector.Machine.Arithmetic
import DistributedVector.Proofs.KernelText
import DistributedVector.Proofs.Serving

/-!
# The value of a formula

A formula has a value at every index: leaves that are vectors stand for their element there, and
operators and functions for what the arithmetic says. What the text of the kernel of a formula shows
has the same value, if its parameters have those of the leaves, each its own, and the names of
functions mean the functions.

A formula can thus be evaluated in two ways, by its tree and by the text of its kernel. Of either
way, operations on vectors need no more than that it depends on the vectors of the formula only.

## Main definitions

* `Terminal.valueAt`, `Formula.value` — the value at an index
* `Evaluation`, `Evaluation.results` — a way to evaluate formulas over vectors, index by index
* `Arithmetic.byTree`, `Arithmetic.byKernel` — evaluating the tree, and the text of the kernel

## Main results

* `Formula.value_reading` — what the text of a formula shows has the value of the formula
-/

namespace DistributedVector

variable {ν μ V : Type}

/-- The value of a leaf at an index, where vectors are types with elements. -/
def Terminal.valueAt (A : Arithmetic V) (look : ν → Option (ElementType × List Scalar)) (i : Nat) :
    Terminal ν → Option V
  | vector v => do
    let (t, xs) ← look v
    return A.load t (← xs[i]?)
  | scalar x t =>
    match t.single x with
    | .ok (.element t, x) => some (A.load t x)
    | _ => none

namespace Formula

mutual

/-- The value of a formula with given leaves. -/
def value (A : Arithmetic V) (leaf : Terminal ν → Option V) : Formula ν → Option V
  | vector v => leaf (.vector v)
  | scalar x t => leaf (.scalar x t)
  | unary tag e => do return A.unary (← (unaryOp tag).toOption) (← e.value A leaf)
  | binary tag l r => do
    return A.binary (← (binaryOp tag).toOption) (← l.value A leaf) (← r.value A leaf)
  | call g args => do return A.call g.callee (← values A leaf args)

/-- The values of arguments. -/
def values (A : Arithmetic V) (leaf : Terminal ν → Option V) : List (Formula ν) → Option (List V)
  | [] => some []
  | e :: rest => do return (← e.value A leaf) :: (← values A leaf rest)

end

mutual

/-- What the text of a lowered formula shows has the value of the formula, if every mention has the
value of its leaf and every name means the function that is called. Leaves are numbered from `n`
on. -/
theorem value_reading (A : Arithmetic V) (leaf : Terminal ν → Option V)
    (mention : Mention → Option V) (means : String → List (Meaning Callee)) : (f : Formula ν) →
    ∀ {n : Nat} {t : KernelTerm} {next : Nat}, f.lowerFrom n = .ok (t, next) →
    (∀ k term, f.terminals[k]? = some term →
      mention ⟨term.kind, parameterName (n + k)⟩ = leaf term) →
    (∀ g ∈ f.functions, means g.name = [.function g.callee]) →
    next = n + f.terminals.length ∧ t.reading.value A mention means = f.value A leaf
  | .vector v, n, t, next, h, hleaf, _ => by
    cases h
    exact ⟨rfl, hleaf 0 _ rfl⟩
  | .scalar x s, n, t, next, h, hleaf, _ => by
    cases h
    exact ⟨rfl, hleaf 0 _ rfl⟩
  | .unary tag e, n, t, next, h, hleaf, hmeans => by
    obtain ⟨op, hop, h⟩ := bind_eq_ok_iff.mp h
    obtain ⟨⟨s, k⟩, hs, h⟩ := bind_eq_ok_iff.mp h
    cases h
    obtain ⟨hnext, hvalue⟩ := value_reading A leaf mention means e hs hleaf hmeans
    refine ⟨hnext, ?_⟩
    simp [value, hop, hvalue, Except.toOption, KernelTerm.reading, Reading.value]
  | .binary tag l r, n, t, next, h, hleaf, hmeans => by
    obtain ⟨⟨l', k⟩, hl, h⟩ := bind_eq_ok_iff.mp h
    obtain ⟨⟨r', k'⟩, hr, h⟩ := bind_eq_ok_iff.mp h
    obtain ⟨op, hop, h⟩ := bind_eq_ok_iff.mp h
    cases h
    obtain ⟨hnext, hvalue⟩ := value_reading A leaf mention means l hl
      (fun k term hk => hleaf k term <| by
        rw [terminals, List.getElem?_append_left (List.getElem?_eq_some_iff.mp hk).1, hk])
      fun g hg => hmeans g (List.mem_append_left _ hg)
    -- the leaves on the right are numbered after those on the left
    obtain ⟨hnext', hvalue'⟩ := value_reading A leaf mention means r hr
      (fun k term hk => by
        rw [hnext, Nat.add_assoc]
        refine hleaf _ term ?_
        rw [terminals, List.getElem?_append_right (Nat.le_add_right _ _),
          Nat.add_sub_cancel_left, hk])
      fun g hg => hmeans g (List.mem_append_right _ hg)
    refine ⟨?_, ?_⟩
    · rw [hnext', hnext, terminals, List.length_append, Nat.add_assoc]
    · simp [value, hop, hvalue, hvalue', Except.toOption, KernelTerm.reading, Reading.value]
  | .call g args, n, t, next, h, hleaf, hmeans => by
    obtain ⟨⟨ts, k⟩, hs, h⟩ := bind_eq_ok_iff.mp h
    cases h
    obtain ⟨hnext, hvalues⟩ := values_readings A leaf mention means args hs hleaf
      fun g hg => hmeans g (List.mem_cons_of_mem _ hg)
    refine ⟨hnext, ?_⟩
    rw [KernelTerm.reading, Reading.value, hvalues, hmeans g List.mem_cons_self]
    rfl

theorem values_readings (A : Arithmetic V) (leaf : Terminal ν → Option V)
    (mention : Mention → Option V) (means : String → List (Meaning Callee)) :
    (args : List (Formula ν)) → ∀ {n : Nat} {ts : List KernelTerm} {next : Nat},
    lowerArgsFrom args n = .ok (ts, next) →
    (∀ k term, (terminalsOfArgs args)[k]? = some term →
      mention ⟨term.kind, parameterName (n + k)⟩ = leaf term) →
    (∀ g ∈ functionsOfArgs args, means g.name = [.function g.callee]) →
    next = n + (terminalsOfArgs args).length ∧
      Reading.values A mention means (KernelTerm.readings ts) = values A leaf args
  | [], n, ts, next, h, hleaf, _ => by
    cases h
    exact ⟨rfl, rfl⟩
  | e :: rest, n, ts, next, h, hleaf, hmeans => by
    obtain ⟨⟨t, k⟩, ht, h⟩ := bind_eq_ok_iff.mp h
    obtain ⟨⟨ts', k'⟩, hs, h⟩ := bind_eq_ok_iff.mp h
    cases h
    obtain ⟨hnext, hvalue⟩ := value_reading A leaf mention means e ht
      (fun k term hk => hleaf k term <| by
        rw [terminalsOfArgs, List.getElem?_append_left (List.getElem?_eq_some_iff.mp hk).1, hk])
      fun g hg => hmeans g (List.mem_append_left _ hg)
    obtain ⟨hnext', hvalues⟩ := values_readings A leaf mention means rest hs
      (fun k term hk => by
        rw [hnext, Nat.add_assoc]
        refine hleaf _ term ?_
        rw [terminalsOfArgs, List.getElem?_append_right (Nat.le_add_right _ _),
          Nat.add_sub_cancel_left, hk])
      fun g hg => hmeans g (List.mem_append_right _ hg)
    refine ⟨?_, ?_⟩
    · rw [hnext', hnext, terminalsOfArgs, List.length_append, Nat.add_assoc]
    · rw [KernelTerm.readings, Reading.values, hvalue, hvalues, values]

end

mutual

theorem value_map (A : Arithmetic V) (leaf : Terminal μ → Option V) (g : ν → μ) : (f : Formula ν) →
    (f.map g).value A leaf = f.value A (fun t => leaf (t.map g))
  | .vector _ => rfl
  | .scalar _ _ => rfl
  | .unary _ e => by simp only [map, value, value_map A leaf g e]
  | .binary _ l r => by simp only [map, value, value_map A leaf g l, value_map A leaf g r]
  | .call _ args => by simp only [map, value, values_map A leaf g args]

theorem values_map (A : Arithmetic V) (leaf : Terminal μ → Option V) (g : ν → μ) :
    (args : List (Formula ν)) → values A leaf (mapArgs g args) =
      values A (fun t => leaf (t.map g)) args
  | [] => rfl
  | e :: rest => by simp only [mapArgs, values, value_map A leaf g e, values_map A leaf g rest]

end

mutual

/-- The value depends on the values of the leaves only. -/
theorem value_congr (A : Arithmetic V) {leaf leaf' : Terminal ν → Option V} : (f : Formula ν) →
    (∀ t ∈ f.terminals, leaf t = leaf' t) → f.value A leaf = f.value A leaf'
  | .vector _, h => h _ List.mem_cons_self
  | .scalar _ _, h => h _ List.mem_cons_self
  | .unary _ e, h => by simp only [value, value_congr A e h]
  | .binary _ l r, h => by
    simp only [value, value_congr A l fun t ht => h t (List.mem_append_left _ ht),
      value_congr A r fun t ht => h t (List.mem_append_right _ ht)]
  | .call _ args, h => by simp only [value, values_congr A args h]

theorem values_congr (A : Arithmetic V) {leaf leaf' : Terminal ν → Option V} :
    (args : List (Formula ν)) → (∀ t ∈ terminalsOfArgs args, leaf t = leaf' t) →
    values A leaf args = values A leaf' args
  | [], _ => rfl
  | e :: rest, h => by
    simp only [values, value_congr A e fun t ht => h t (List.mem_append_left _ ht),
      values_congr A rest fun t ht => h t (List.mem_append_right _ ht)]

end

mutual

/-- A value stays if more leaves get one. -/
theorem value_mono (A : Arithmetic V) {leaf leaf' : Terminal ν → Option V}
    (h : ∀ t a, leaf t = some a → leaf' t = some a) : (f : Formula ν) → ∀ {a : V},
    f.value A leaf = some a → f.value A leaf' = some a
  | .vector v, a, hf => h _ a hf
  | .scalar x t, a, hf => h _ a hf
  | .unary tag e, a, hf => by
    simp only [value, Option.bind_eq_bind, Option.bind_eq_some_iff] at hf ⊢
    obtain ⟨op, hop, b, hb, ha⟩ := hf
    exact ⟨op, hop, b, value_mono A h e hb, ha⟩
  | .binary tag l r, a, hf => by
    simp only [value, Option.bind_eq_bind, Option.bind_eq_some_iff] at hf ⊢
    obtain ⟨op, hop, b, hb, c, hc, ha⟩ := hf
    exact ⟨op, hop, b, value_mono A h l hb, c, value_mono A h r hc, ha⟩
  | .call g args, a, hf => by
    simp only [value, Option.bind_eq_bind, Option.bind_eq_some_iff] at hf ⊢
    obtain ⟨bs, hbs, ha⟩ := hf
    exact ⟨bs, values_mono A h args hbs, ha⟩

theorem values_mono (A : Arithmetic V) {leaf leaf' : Terminal ν → Option V}
    (h : ∀ t a, leaf t = some a → leaf' t = some a) : (args : List (Formula ν)) → ∀ {as : List V},
    values A leaf args = some as → values A leaf' args = some as
  | [], _, hargs => hargs
  | e :: rest, as, hargs => by
    simp only [values, Option.bind_eq_bind, Option.bind_eq_some_iff] at hargs ⊢
    obtain ⟨a, ha, bs, hbs, has⟩ := hargs
    exact ⟨a, value_mono A h e ha, bs, values_mono A h rest hbs, has⟩

end

mutual

theorem map_map {κ : Type} (g : ν → μ) (h : μ → κ) : (f : Formula ν) →
    (f.map g).map h = f.map (h ∘ g)
  | .vector _ | .scalar _ _ => rfl
  | .unary _ e => by rw [map, map, map, map_map g h e]
  | .binary _ l r => by rw [map, map, map, map_map g h l, map_map g h r]
  | .call _ args => by rw [map, map, map, mapArgs_mapArgs g h args]

theorem mapArgs_mapArgs {κ : Type} (g : ν → μ) (h : μ → κ) : (args : List (Formula ν)) →
    mapArgs h (mapArgs g args) = mapArgs (h ∘ g) args
  | [] => rfl
  | e :: rest => by rw [mapArgs, mapArgs, mapArgs, map_map g h e, mapArgs_mapArgs g h rest]

end

mutual

/-- Replacing vectors depends on the vectors of the formula only. -/
theorem map_congr {g h : ν → μ} : (f : Formula ν) →
    (∀ v, .vector v ∈ f.terminals → g v = h v) → f.map g = f.map h
  | .vector v, hf => by rw [map, map, hf v List.mem_cons_self]
  | .scalar _ _, _ => rfl
  | .unary _ e, hf => by rw [map, map, map_congr e hf]
  | .binary _ l r, hf => by
    rw [map, map, map_congr l fun v hv => hf v (List.mem_append_left _ hv),
      map_congr r fun v hv => hf v (List.mem_append_right _ hv)]
  | .call _ args, hf => by rw [map, map, mapArgs_congr args hf]

theorem mapArgs_congr {g h : ν → μ} : (args : List (Formula ν)) →
    (∀ v, .vector v ∈ terminalsOfArgs args → g v = h v) → mapArgs g args = mapArgs h args
  | [], _ => rfl
  | e :: rest, hf => by
    rw [mapArgs, mapArgs, map_congr e fun v hv => hf v (List.mem_append_left _ hv),
      mapArgs_congr rest fun v hv => hf v (List.mem_append_right _ hv)]

end

end Formula

/-! ## Leaves -/

section Leaves

variable {A : Arithmetic V} {look look' : ν → Option (ElementType × List Scalar)} {i : Nat}

theorem Terminal.valueAt_map (A : Arithmetic V) (look : μ → Option (ElementType × List Scalar))
    (g : ν → μ) (i : Nat) (t : Terminal ν) :
    Terminal.valueAt A look i (t.map g) = Terminal.valueAt A (look ∘ g) i t := by
  cases t <;> rfl

theorem Terminal.valueAt_congr {t : Terminal ν} (h : ∀ v, t = .vector v → look v = look' v) :
    Terminal.valueAt A look i t = Terminal.valueAt A look' i t := by
  cases t with
  | vector v => simp only [Terminal.valueAt, h v rfl]
  | scalar x dt => rfl

theorem Terminal.valueAt_mono (h : ∀ v z, look v = some z → look' v = some z)
    {t : Terminal ν} {a : V}
    (ht : Terminal.valueAt A look i t = some a) : Terminal.valueAt A look' i t = some a := by
  cases t with
  | vector v =>
    simp only [Terminal.valueAt, Option.bind_eq_bind, Option.bind_eq_some_iff] at ht ⊢
    obtain ⟨z, hz, ha⟩ := ht
    exact ⟨z, h v z hz, ha⟩
  | scalar x dt => exact ht

end Leaves

/-! ## Ways to evaluate -/

/-- A way to evaluate formulas over vectors that are types with elements: what a vector of a type
gets at an index. It depends on the vectors of the formula only. -/
structure Evaluation where
  at? : {ν : Type} → ElementType → (ν → Option (ElementType × List Scalar)) → Formula ν → Nat →
    Option Scalar
  map : ∀ {ν μ : Type} (type : ElementType) (look : μ → Option (ElementType × List Scalar))
    (g : ν → μ) (f : Formula ν) (i : Nat), at? type look (f.map g) i = at? type (look ∘ g) f i
  congr : ∀ {ν : Type} {type : ElementType} {look look' : ν → Option (ElementType × List Scalar)}
    {f : Formula ν} {i : Nat}, (∀ v, .vector v ∈ f.terminals → look v = look' v) →
      at? type look f i = at? type look' f i
  mono : ∀ {ν : Type} {type : ElementType} {look look' : ν → Option (ElementType × List Scalar)}
    {f : Formula ν} {i : Nat} {x : Scalar}, (∀ v z, look v = some z → look' v = some z) →
      at? type look f i = some x → at? type look' f i = some x

namespace Evaluation

variable {E : Evaluation} {type : ElementType} {n : Nat} {f : Formula ν}
  {look look' : ν → Option (ElementType × List Scalar)} {xs : List Scalar}

/-- The elements of a vector of `n` elements of a type that the formula is assigned to, evaluated
index by index. -/
def results (E : Evaluation) (type : ElementType) (n : Nat)
    (look : ν → Option (ElementType × List Scalar)) (f : Formula ν) : Option (List Scalar) :=
  (List.range n).mapM (E.at? type look f)

/-- Replacing vectors is looking up others. -/
theorem results_map (E : Evaluation) (type : ElementType) (n : Nat)
    (look : μ → Option (ElementType × List Scalar)) (g : ν → μ) (f : Formula ν) :
    E.results type n look (f.map g) = E.results type n (look ∘ g) f := by
  have hat : E.at? type look (f.map g) = E.at? type (look ∘ g) f := funext (E.map type look g f)
  rw [results, results, hat]

/-- The results depend on the vectors of the formula only. -/
theorem results_congr (h : ∀ v, .vector v ∈ f.terminals → look v = look' v) :
    E.results type n look f = E.results type n look' f := by
  have hat : E.at? type look f = E.at? type look' f := funext fun i => E.congr h
  rw [results, results, hat]

/-- Results that are there stay if they do at each index. -/
theorem results_imp {E' : Evaluation}
    (h : ∀ i < n, ∀ x, E.at? type look f i = some x → E'.at? type look' f i = some x)
    (hf : E.results type n look f = some xs) : E'.results type n look' f = some xs := by
  rw [results, mapM_eq_some_iff] at hf ⊢
  have hall := (List.forall₂_and_left _ _).mpr ⟨fun i hi => h i (List.mem_range.mp hi), hf⟩
  exact hall.imp fun i x hx => hx.1 x hx.2

/-- Results stay if there are more vectors. -/
theorem results_mono (h : ∀ v z, look v = some z → look' v = some z)
    (hf : E.results type n look f = some xs) : E.results type n look' f = some xs :=
  results_imp (fun _ _ _ hx => E.mono h hx) hf

end Evaluation

/-- The type of a vector; without one, a type that devices do not support. -/
def DataType.ofVector (z : Option (ElementType × List Scalar)) : DataType :=
  z.elim (.foreign .object) fun z => .element z.1

namespace Formula

/-- The text of the kernel of a formula over vectors that are types with elements. -/
def kernelTextOver? (type : ElementType) (look : ν → Option (ElementType × List Scalar))
    (f : Formula ν) : Option String :=
  (f.map fun v => DataType.ofVector (look v)).kernelText? type

theorem kernelTextOver?_congr {type : ElementType}
    {look look' : ν → Option (ElementType × List Scalar)} {f : Formula ν}
    (h : ∀ v, .vector v ∈ f.terminals → look v = look' v) :
    f.kernelTextOver? type look = f.kernelTextOver? type look' := by
  rw [kernelTextOver?, kernelTextOver?, map_congr f fun v hv => congrArg DataType.ofVector (h v hv)]

/-- The values of the leaves at an index. -/
def argumentsAt (A : Arithmetic V) (look : ν → Option (ElementType × List Scalar)) (f : Formula ν)
    (i : Nat) : Option (List V) :=
  f.terminals.mapM (Terminal.valueAt A look i)

/-- Vectors whose elements are arguments are there. -/
theorem exists_of_argumentsAt {A : Arithmetic V} {look : ν → Option (ElementType × List Scalar)}
    {f : Formula ν} {i : Nat} {args : List V} (h : f.argumentsAt A look i = some args) {v : ν}
    (hv : .vector v ∈ f.terminals) : ∃ z, look v = some z := by
  obtain ⟨k, hk⟩ := List.getElem?_of_mem hv
  obtain ⟨a, -, ha⟩ := getElem?_of_forall₂ (mapM_eq_some_iff.mp h) hk
  obtain ⟨z, hz, -⟩ := Option.bind_eq_some_iff.mp ha
  exact ⟨z, hz⟩

theorem argumentsAt_congr {A : Arithmetic V} {look look' : ν → Option (ElementType × List Scalar)}
    {f : Formula ν} {i : Nat} (h : ∀ v, .vector v ∈ f.terminals → look v = look' v) :
    f.argumentsAt A look i = f.argumentsAt A look' i :=
  mapM_option_congr fun _ ht => Terminal.valueAt_congr fun v hv => h v (hv ▸ ht)

theorem argumentsAt_map (A : Arithmetic V)
    (look : μ → Option (ElementType × List Scalar)) (g : ν → μ) (f : Formula ν)
    (i : Nat) : (f.map g).argumentsAt A look i = f.argumentsAt A (look ∘ g) i := by
  have hleaf : Terminal.valueAt A look i ∘ Terminal.map g = Terminal.valueAt A (look ∘ g) i :=
    funext (Terminal.valueAt_map A look g i)
  rw [argumentsAt, argumentsAt, terminals_map, List.mapM_map, hleaf]

/-- What the text of the kernel of a formula computes at an index. -/
def kernelAt (A : Arithmetic V) (type : ElementType) (look : ν → Option (ElementType × List Scalar))
    (f : Formula ν) (i : Nat) : Option Scalar := do
  let text ← f.kernelTextOver? type look
  return A.store type (A.compute text (← f.argumentsAt A look i))

theorem kernelAt_eq_some {A : Arithmetic V} {type : ElementType}
    {look : ν → Option (ElementType × List Scalar)} {f : Formula ν} {i : Nat} {x : Scalar} :
    f.kernelAt A type look i = some x ↔ ∃ text args, f.kernelTextOver? type look = some text ∧
      f.argumentsAt A look i = some args ∧ x = A.store type (A.compute text args) := by
  simp only [kernelAt, Option.bind_eq_bind, Option.pure_def, Option.bind_eq_some_iff,
    Option.some.injEq, exists_and_left, eq_comm (a := x)]

theorem kernelAt_congr {A : Arithmetic V} {type : ElementType}
    {look look' : ν → Option (ElementType × List Scalar)} {f : Formula ν} {i : Nat}
    (h : ∀ v, .vector v ∈ f.terminals → look v = look' v) :
    f.kernelAt A type look i = f.kernelAt A type look' i := by
  rw [kernelAt, kernelAt, kernelTextOver?_congr h, argumentsAt_congr h]

end Formula

namespace Arithmetic

/-- Evaluates the tree of a formula. -/
def byTree (A : Arithmetic V) : Evaluation where
  at? type look f i := (f.value A (Terminal.valueAt A look i)).map (A.store type)
  map type look g f i := by
    have hleaf : (fun t => Terminal.valueAt A look i (t.map g)) = Terminal.valueAt A (look ∘ g) i :=
      funext (Terminal.valueAt_map A look g i)
    rw [Formula.value_map, hleaf]
  congr {ν type look look' f i} h := by
    rw [Formula.value_congr A f fun t ht => Terminal.valueAt_congr fun v hv => h v (hv ▸ ht)]
  mono {ν type look look' f i x} h hx := by
    obtain ⟨a, ha, rfl⟩ := Option.map_eq_some_iff.mp hx
    rw [Formula.value_mono A (fun t a => Terminal.valueAt_mono h) f ha]
    rfl

theorem byTree_at? (A : Arithmetic V) (type : ElementType)
    (look : ν → Option (ElementType × List Scalar)) (f : Formula ν) (i : Nat) :
    A.byTree.at? type look f i = (f.value A (Terminal.valueAt A look i)).map (A.store type) := rfl

/-- Evaluates the text of the kernel of a formula, as devices do. -/
def byKernel (A : Arithmetic V) : Evaluation where
  at? type look f i := f.kernelAt A type look i
  map type look g f i := by
    rw [Formula.kernelAt, Formula.kernelAt, Formula.kernelTextOver?, Formula.map_map,
      Formula.argumentsAt_map]
    rfl
  congr {ν type look look' f i} h := Formula.kernelAt_congr h
  mono {ν type look look' f i x} h hx := by
    -- all vectors of the formula are there
    obtain ⟨text, args, -, hargs, -⟩ := Formula.kernelAt_eq_some.mp hx
    rw [← hx]
    exact Formula.kernelAt_congr fun v hv => by
      obtain ⟨z, hz⟩ := Formula.exists_of_argumentsAt hargs hv
      rw [hz, h v z hz]

end Arithmetic

end DistributedVector
