import DistributedVector.Proofs.ShapeSource
import DistributedVector.Vector.Descriptor

/-!
# The kernels that serve formulas

A kernel may have been generated from another formula than the one that asks for it, as long as both
have one shape. The text is then that of a kernel for the formula at hand with the numbers in native
byte order, which shapes do not tell from swapped byte order and devices do.

## Main definitions

* `Formula.native`, `Formula.kernelText?` — numbers in native byte order, and the text of the kernel
* `KernelSource.Serves` — a kernel computes a formula over vectors

## Main results

* `KernelSource.serves_of_key` — a kernel found by its key serves the formula that asks for it
-/

namespace DistributedVector

/-- Among the foreign types, only those in swapped byte order have the tag of an element type. -/
theorem ForeignType.eq_swapped_of_token {t : ForeignType} {e : ElementType}
    (h : t.token = e.token) : t = .swapped e := by
  cases t with
  | swapped t => rw [ElementType.token_injective h]
  | bytes n | text n =>
    have hfirst := congrArg (fun s => s.toList.head?) h
    cases e <;> simp [ElementType.token, token] at hfirst
  | _ => revert h; cases e <;> decide

/-- A type in native byte order. -/
def DataType.native : DataType → DataType
  | element t => element t
  | foreign (.swapped t) => element t
  | foreign t => foreign t

@[simp] theorem DataType.token_native (t : DataType) : t.native.token = t.token := by
  cases t with
  | element t => rfl
  | foreign t => cases t <;> rfl

/-- Devices support a type in native byte order if it has the tag of a type that they support. -/
theorem DataType.isSupported_native {t : DataType} {e : ElementType} (h : t.token = e.token) :
    t.native.isSupported := by
  cases t with
  | element t => rfl
  | foreign t =>
    obtain rfl := ForeignType.eq_swapped_of_token h
    rfl

/-- A leaf whose number is in native byte order. -/
def Terminal.native {ν : Type} : Terminal ν → Terminal ν
  | vector v => vector v
  | scalar x t => scalar x t.native

namespace Formula

variable {ν μ : Type}

mutual

/-- The formula with all numbers in native byte order. -/
def native : Formula ν → Formula ν
  | vector v => vector v
  | scalar x t => scalar x t.native
  | unary tag e => unary tag e.native
  | binary tag l r => binary tag l.native r.native
  | call g args => call g (nativeArgs args)

/-- Arguments with all numbers in native byte order. -/
def nativeArgs : List (Formula ν) → List (Formula ν)
  | [] => []
  | e :: rest => e.native :: nativeArgs rest

end

mutual

theorem shape_native : (f : Formula DataType) → f.native.shape = f.shape
  | .vector _ => rfl
  | .scalar _ t => by rw [native, shape, shape, t.token_native]
  | .unary _ e => by rw [native, shape, shape, shape_native e]
  | .binary _ l r => by rw [native, shape, shape, shape_native l, shape_native r]
  | .call _ args => by rw [native, shape, shape, shapes_nativeArgs args]

theorem shapes_nativeArgs : (args : List (Formula DataType)) →
    shapes (nativeArgs args) = shapes args
  | [] => rfl
  | e :: rest => by rw [nativeArgs, shapes, shapes, shape_native e, shapes_nativeArgs rest]

end

mutual

theorem terminals_native : (f : Formula ν) → f.native.terminals = f.terminals.map Terminal.native
  | .vector _ | .scalar _ _ => rfl
  | .unary _ e => terminals_native e
  | .binary _ l r => by
    simp only [native, terminals, terminals_native l, terminals_native r, List.map_append]
  | .call _ args => terminalsOfArgs_native args

theorem terminalsOfArgs_native : (args : List (Formula ν)) →
    terminalsOfArgs (nativeArgs args) = (terminalsOfArgs args).map Terminal.native
  | [] => rfl
  | e :: rest => by
    simp only [nativeArgs, terminalsOfArgs, terminals_native e, terminalsOfArgs_native rest,
      List.map_append]

end

/-- The text of the kernel of a formula into a type. -/
def kernelText? (f : Formula DataType) (type : ElementType) : Option String :=
  (KernelSource.ofFormula f.native (.element type)).toOption.map KernelSource.text

end Formula

/-- A parameter takes a leaf: a vector of its type, or a scalar of a type with the tag of its
own. -/
def Parameter.Takes (p : Parameter) : Terminal Descriptor → Prop
  | .vector v => p.kind = .vector ∧ p.type = .element v.type
  | .scalar _ t => p.kind = .scalar ∧ ∃ e : ElementType, p.type = .element e ∧ t.token = e.token

/-- Parameters for leaves take the leaves of the same kinds and tags, if devices support them. -/
theorem forall₂_takes {leaves : List (Terminal Descriptor)} {others : List (Terminal DataType)}
    {first : Nat} (h : others.map (fun t => (t.kind, t.type.token)) =
      (leaves.map (Terminal.map fun d => DataType.element d.type)).map
        (fun t => (t.kind, t.type.token)))
    (hsupported : ∀ p ∈ parametersFrom first others, ∃ e, p.type = .element e) :
    List.Forall₂ Parameter.Takes (parametersFrom first others) leaves := by
  induction others generalizing leaves first with
  | nil =>
    cases leaves with
    | nil => exact .nil
    | cons t rest => cases h
  | cons t others ih =>
    cases leaves with
    | nil => cases h
    | cons leaf leaves =>
      simp only [List.map_cons, List.cons.injEq, Prod.mk.injEq] at h
      obtain ⟨⟨hkind, htoken⟩, hrest⟩ := h
      have hrest := ih hrest fun p hp => hsupported p (List.mem_cons_of_mem _ hp)
      refine .cons ?_ hrest
      obtain ⟨e, he⟩ := hsupported ⟨parameterName first, t.kind, t.type⟩ List.mem_cons_self
      have he : t.type = .element e := he
      rw [he] at htoken
      -- equal tags are equal types for vectors; a scalar may have another type with the tag
      cases leaf with
      | vector d => exact ⟨hkind, he.trans (congrArg _ (ElementType.token_injective htoken))⟩
      | scalar x dt => exact ⟨hkind, e, he, htoken.symm⟩

/-- A kernel computes a formula over vectors into a type, and takes the leaves of the formula. -/
structure KernelSource.Serves (source : KernelSource) (f : Formula Descriptor)
    (type : ElementType) : Prop where
  text : (f.map fun d => .element d.type).kernelText? type = some source.text
  result : source.result = .element type
  parameters : List.Forall₂ Parameter.Takes source.parameters f.terminals

/-- Leaves with the tags of leaves that devices support are supported in native byte order. -/
theorem supported_native {ts us : List (Terminal DataType)}
    (h : ts.map (fun t => (t.kind, t.type.token)) = us.map fun t => (t.kind, t.type.token))
    (hts : ∀ t ∈ ts, t.type.isSupported)
    (hus : ∀ t, .vector t ∈ us → t.isSupported) :
    ∀ t ∈ us.map Terminal.native, t.type.isSupported := by
  simp only [List.forall_mem_map]
  intro u hu
  cases u with
  | vector t => exact hus t hu
  | scalar x dt =>
    have hmem : (ParameterKind.scalar, dt.token) ∈ us.map fun t => (t.kind, t.type.token) :=
      List.mem_map_of_mem hu
    rw [← h] at hmem
    obtain ⟨t, ht, heq⟩ := List.mem_map.mp hmem
    obtain ⟨e, he⟩ := DataType.isSupported_iff.mp (hts t ht)
    have htoken : dt.token = e.token := by rw [← (Prod.mk.inj heq).2, he]; rfl
    exact DataType.isSupported_native htoken

/-- A kernel that is found by the key of a shape serves the formulas of the shape, whichever formula
it has been generated from. -/
theorem KernelSource.serves_of_key {f : Formula Descriptor} {type : ElementType}
    {g : Formula DataType} {result : Option DataType} {source : KernelSource}
    (h : ofFormula g (result.getD .unnamed) = .ok source)
    (hkey : (g.kernelShape result).key =
      ((f.map fun d => .element d.type).kernelShape (some (.element type))).key) :
    source.Serves f type := by
  obtain ⟨-, hresult, ⟨e, he⟩, hparameters, hsupported⟩ := ofFormula_eq_ok h
  have hshapes := KernelShape.key_injective hkey
  have hshape : g.shape = (f.map fun d => DataType.element d.type).shape :=
    congrArg KernelShape.body hshapes
  have htoken : result.map DataType.token = some type.token := congrArg KernelShape.result hshapes
  obtain ⟨dt, rfl, hdt⟩ := Option.map_eq_some_iff.mp htoken
  obtain rfl : dt = .element e := he
  obtain rfl := ElementType.token_injective hdt
  have hleaves : g.terminals.map (fun t => (t.kind, t.type.token)) =
      (f.map fun d => DataType.element d.type).terminals.map fun t => (t.kind, t.type.token) := by
    rw [Formula.leaves_eq, Formula.leaves_eq, hshape]
  have hterminals : ∀ t ∈ g.terminals, t.type.isSupported :=
    supported_of_parametersFrom fun p hp => DataType.isSupported_iff.mpr (hsupported p hp)
  refine ⟨?_, hresult, ?_⟩
  · -- in native byte order, the formula has the kernel of any other one of its shape
    have hsame : ofFormula (f.map fun d => .element d.type).native (.element e) = .ok source := by
      refine (ofFormula_congr hterminals ?_ ?_ (.element e)).symm.trans h
      · rw [Formula.terminals_native]
        refine supported_native hleaves hterminals fun t ht => ?_
        rw [Formula.terminals_map] at ht
        obtain ⟨u, -, hu⟩ := List.mem_map.mp ht
        cases u <;> cases hu
        rfl
      · rw [Formula.shape_native, hshape]
    rw [Formula.kernelText?, hsame]
    rfl
  · rw [hparameters]
    refine forall₂_takes ?_ hsupported
    rw [← Formula.terminals_map, hleaves]

end DistributedVector
