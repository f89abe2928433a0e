import DistributedVector.Kernel.Source
import DistributedVector.Proofs.Overlay
import DistributedVector.Vector.Descriptor

/-!
# Shapes determine kernels

Kernels are found by the key of a shape. Equal keys stand for equal shapes, and what a kernel
computes, stores and asks for depends on the shape only: formulas of one shape have the same term,
and their leaves agree in kind and in the tag of their type. Where devices support the types, equal
tags are equal types.

## Main definitions

* `Shape.lowerFrom`, `Shape.leaves` — the term and the leaves of the formulas of a shape

## Main results

* `Shape.key_injective`, `KernelShape.key_injective` — equal keys stand for equal shapes
* `Formula.lowerFrom_eq`, `Formula.leaves_eq` — formulas of one shape share term and leaves
-/

namespace DistributedVector

theorem Builtin.name_injective {a b : Builtin} (h : a.name = b.name) : a = b := by
  revert h; cases a <;> cases b <;> decide

theorem UserFunction.key_injective {f g : UserFunction} (h : f.key = g.key) : f = g := by
  obtain ⟨name, result, params, body⟩ := f
  obtain ⟨name', result', params', body'⟩ := g
  simp only [UserFunction.key, Key.tuple.injEq, List.cons.injEq, Key.text.injEq, true_and,
    and_true] at h
  obtain ⟨rfl, hresult, hparams, rfl⟩ := h
  obtain rfl := ElementType.token_injective hresult
  have hinjective : ∀ p q : String × ElementType,
      Key.tuple [.text p.1, .text p.2.token] = Key.tuple [.text q.1, .text q.2.token] → p = q := by
    rintro ⟨p, s⟩ ⟨q, t⟩ h
    simp only [Key.tuple.injEq, List.cons.injEq, Key.text.injEq, and_true] at h
    rw [h.1, ElementType.token_injective h.2]
  rw [List.map_injective_iff.mpr (fun p q => hinjective p q) hparams]

theorem Function.key_injective {f g : Function} (h : f.key = g.key) : f = g := by
  cases f with
  | builtin b =>
    cases g with
    | builtin c =>
      simp only [key, Key.tuple.injEq, List.cons.injEq, Key.text.injEq, and_true, true_and] at h
      rw [Builtin.name_injective h]
    | user g => simp [key, UserFunction.key] at h
  | user f =>
    cases g with
    | builtin c => simp [key, UserFunction.key] at h
    | user g => rw [UserFunction.key_injective h]

mutual

/-- Equal keys stand for equal shapes. -/
theorem Shape.key_injective : (s t : Shape) → s.key = t.key → s = t
  | .vector _, .vector _, h => by simpa [key] using h
  | .scalar _, .scalar _, h => by simpa [key] using h
  | .unary a s, .unary b t, h => by
    simp only [key, Key.tuple.injEq, List.cons.injEq, Key.text.injEq, and_true, true_and] at h
    rw [h.1, key_injective s t h.2]
  | .binary a l r, .binary b l' r', h => by
    simp only [key, Key.tuple.injEq, List.cons.injEq, Key.text.injEq, and_true, true_and] at h
    rw [h.1, key_injective l l' h.2.1, key_injective r r' h.2.2]
  | .call f ss, .call g ts, h => by
    simp only [key, Key.tuple.injEq, List.cons.injEq, true_and] at h
    rw [Function.key_injective h.1, keys_injective ss ts h.2]
  | .vector _, .scalar _, h | .vector _, .unary _ _, h | .vector _, .binary _ _ _, h
  | .vector _, .call _ _, h | .scalar _, .vector _, h | .scalar _, .unary _ _, h
  | .scalar _, .binary _ _ _, h | .scalar _, .call _ _, h | .unary _ _, .vector _, h
  | .unary _ _, .scalar _, h | .unary _ _, .binary _ _ _, h | .unary _ _, .call _ _, h
  | .binary _ _ _, .vector _, h | .binary _ _ _, .scalar _, h | .binary _ _ _, .unary _ _, h
  | .binary _ _ _, .call _ _, h | .call _ _, .vector _, h | .call _ _, .scalar _, h
  | .call _ _, .unary _ _, h | .call _ _, .binary _ _ _, h => by simp [key] at h

theorem Shape.keys_injective : (ss ts : List Shape) → Shape.keys ss = Shape.keys ts → ss = ts
  | [], [], _ => rfl
  | s :: ss, t :: ts, h => by
    simp only [keys, List.cons.injEq] at h
    rw [key_injective s t h.1, keys_injective ss ts h.2]
  | [], _ :: _, h | _ :: _, [], h => by simp [keys] at h

end

/-- The key of a shape is not one of a shape with a result type. -/
theorem Shape.key_ne_result (s : Shape) (t : String) (k : Key) :
    s.key ≠ .tuple [.text "result", .text t, k] := by
  cases s <;> simp [key]

theorem KernelShape.key_injective {s t : KernelShape} (h : s.key = t.key) : s = t := by
  obtain ⟨result, body⟩ := s
  obtain ⟨result', body'⟩ := t
  cases result with
  | none =>
    cases result' with
    | none => rw [Shape.key_injective body body' h]
    | some t => exact absurd h (body.key_ne_result t _)
  | some t =>
    cases result' with
    | none => exact absurd h.symm (body'.key_ne_result t _)
    | some t' =>
      simp only [key, Key.tuple.injEq, List.cons.injEq, Key.text.injEq, and_true, true_and] at h
      rw [h.1, Shape.key_injective body body' h.2]

namespace Shape

mutual

/-- The term of the formulas of a shape. -/
def lowerFrom : Shape → Nat → Except TagFault (KernelTerm × Nat)
  | vector _, next => .ok (.entry next, next + 1)
  | scalar _, next => .ok (.value next, next + 1)
  | unary tag s, next => do
    let op ← unaryOp tag
    let (t, next) ← s.lowerFrom next
    return (.unary op t, next)
  | binary tag l r, next => do
    let (l, next) ← l.lowerFrom next
    let (r, next) ← r.lowerFrom next
    return (.binary (← binaryOp tag) l r, next)
  | call g args, next => do
    let (args, next) ← lowerArgsFrom args next
    return (.call g args, next)

/-- The terms of arguments. -/
def lowerArgsFrom : List Shape → Nat → Except TagFault (List KernelTerm × Nat)
  | [], next => .ok ([], next)
  | s :: rest, next => do
    let (t, next) ← s.lowerFrom next
    let (ts, next) ← lowerArgsFrom rest next
    return (t :: ts, next)

end

mutual

/-- The leaves of the formulas of a shape: their kind and the tag of their type. -/
def leaves : Shape → List (ParameterKind × String)
  | vector t => [(.vector, t)]
  | scalar t => [(.scalar, t)]
  | unary _ s => s.leaves
  | binary _ l r => l.leaves ++ r.leaves
  | call _ args => leavesOfArgs args

/-- The leaves of arguments. -/
def leavesOfArgs : List Shape → List (ParameterKind × String)
  | [] => []
  | s :: rest => s.leaves ++ leavesOfArgs rest

end

end Shape

namespace Formula

mutual

/-- Formulas of one shape have the same term. -/
theorem lowerFrom_eq : (f : Formula DataType) → ∀ n, f.lowerFrom n = f.shape.lowerFrom n
  | .vector _, _ => rfl
  | .scalar _ _, _ => rfl
  | .unary tag e, n => by simp only [lowerFrom, shape, Shape.lowerFrom, lowerFrom_eq e]
  | .binary tag l r, n => by
    simp only [lowerFrom, shape, Shape.lowerFrom, lowerFrom_eq l, lowerFrom_eq r]
  | .call g args, n => by
    simp only [lowerFrom, shape, Shape.lowerFrom, lowerArgsFrom_eq args]

theorem lowerArgsFrom_eq : (args : List (Formula DataType)) → ∀ n,
    lowerArgsFrom args n = Shape.lowerArgsFrom (shapes args) n
  | [], _ => rfl
  | e :: rest, n => by
    simp only [lowerArgsFrom, shapes, Shape.lowerArgsFrom, lowerFrom_eq e, lowerArgsFrom_eq rest]

end

mutual

/-- Formulas of one shape have leaves of the same kinds and tags. -/
theorem leaves_eq : (f : Formula DataType) →
    f.terminals.map (fun t => (t.kind, t.type.token)) = f.shape.leaves
  | .vector _ => rfl
  | .scalar _ _ => rfl
  | .unary _ e => leaves_eq e
  | .binary _ l r => by
      rw [terminals, shape, Shape.leaves, List.map_append, leaves_eq l, leaves_eq r]
  | .call _ args => leavesOfArgs_eq args

theorem leavesOfArgs_eq : (args : List (Formula DataType)) →
    (terminalsOfArgs args).map (fun t => (t.kind, t.type.token)) = Shape.leavesOfArgs (shapes args)
  | [] => rfl
  | e :: rest => by
    rw [terminalsOfArgs, shapes, Shape.leavesOfArgs, List.map_append, leaves_eq e,
      leavesOfArgs_eq rest]

end

variable {ν μ : Type}

mutual

/-- The term of a formula does not depend on its vectors. -/
theorem lowerFrom_map (g : ν → μ) : (f : Formula ν) → ∀ n, (f.map g).lowerFrom n = f.lowerFrom n
  | .vector _, _ => rfl
  | .scalar _ _, _ => rfl
  | .unary tag e, n => by simp only [map, lowerFrom, lowerFrom_map g e]
  | .binary tag l r, n => by simp only [map, lowerFrom, lowerFrom_map g l, lowerFrom_map g r]
  | .call _ args, n => by simp only [map, lowerFrom, lowerArgsFrom_map g args]

theorem lowerArgsFrom_map (g : ν → μ) : (args : List (Formula ν)) → ∀ n,
    lowerArgsFrom (mapArgs g args) n = lowerArgsFrom args n
  | [], _ => rfl
  | e :: rest, n => by
    simp only [mapArgs, lowerArgsFrom, lowerFrom_map g e, lowerArgsFrom_map g rest]

end

end Formula

/-- Replaces the vector of a leaf. -/
def Terminal.map {ν μ : Type} (g : ν → μ) : Terminal ν → Terminal μ
  | vector v => vector (g v)
  | scalar x t => scalar x t

namespace Formula

variable {ν μ : Type}

mutual

theorem terminals_map (g : ν → μ) : (f : Formula ν) →
    (f.map g).terminals = f.terminals.map (Terminal.map g)
  | .vector _ => rfl
  | .scalar _ _ => rfl
  | .unary _ e => terminals_map g e
  | .binary _ l r => by
    simp only [map, terminals, terminals_map g l, terminals_map g r, List.map_append]
  | .call _ args => terminalsOfArgs_map g args

theorem terminalsOfArgs_map (g : ν → μ) : (args : List (Formula ν)) →
    terminalsOfArgs (mapArgs g args) = (terminalsOfArgs args).map (Terminal.map g)
  | [] => rfl
  | e :: rest => by
    simp only [mapArgs, terminalsOfArgs, terminals_map g e, terminalsOfArgs_map g rest,
      List.map_append]

end

end Formula

theorem DataType.supported_eq_ok {t : DataType} {e : ElementType} (h : t.supported = .ok e) :
    t = .element e := by
  cases t with
  | element t =>
    cases h
    rfl
  | foreign t => cases h

namespace KernelSource

theorem parameterText_supported {p : Parameter} {text : String} (h : parameterText p = .ok text) :
    ∃ e, p.type = .element e := by
  obtain ⟨e, he, -⟩ := bind_eq_ok_iff.mp h
  exact ⟨e, DataType.supported_eq_ok he⟩

/-- What is known of a kernel that has been generated. -/
theorem ofFormula_eq_ok {f : Formula DataType} {result : DataType} {source : KernelSource}
    (h : ofFormula f result = .ok source) :
    (∃ t, f.lower = .ok t) ∧ source.result = result ∧ (∃ e, result = .element e) ∧
      source.parameters = f.parameters ∧ ∀ p ∈ f.parameters, ∃ e, p.type = .element e := by
  obtain ⟨signature, hsignature, h⟩ := bind_eq_ok_iff.mp h
  obtain ⟨term, hterm, h⟩ := bind_eq_ok_iff.mp h
  cases h
  obtain ⟨e, he, hparams⟩ := bind_eq_ok_iff.mp hsignature
  obtain ⟨texts, htexts, -⟩ := bind_eq_ok_iff.mp hparams
  refine ⟨⟨term, mapError_eq_ok_iff.mp hterm⟩, rfl, ⟨e, DataType.supported_eq_ok he⟩, rfl, ?_⟩
  have hall := (mapM_eq_ok_iff.mp htexts).imp fun p text htext =>
    And.intro (parameterText_supported htext) htext
  exact ((List.forall₂_and_left _ _).mp hall).1

/-- The text of a kernel that has been generated. -/
theorem text_of_ofFormula {f : Formula DataType} {result : DataType} {source : KernelSource}
    (h : ofFormula f result = .ok source) : ∃ t entries, f.lower = .ok t ∧
      signature result f.parameters = .ok entries ∧ source.text = "\n".intercalate (lines
        (f.userFunctions.map UserFunction.declaration) source.name entries t.render) ++ "\n" := by
  obtain ⟨entries, hentries, h⟩ := bind_eq_ok_iff.mp h
  obtain ⟨term, hterm, h⟩ := bind_eq_ok_iff.mp h
  cases h
  exact ⟨term, entries, mapError_eq_ok_iff.mp hterm, hentries, rfl⟩

end KernelSource

end DistributedVector
