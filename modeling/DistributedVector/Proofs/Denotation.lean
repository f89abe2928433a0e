import DistributedVector.Proofs.SourceText
import DistributedVector.Proofs.Value

/-!
# What the text of a kernel computes

Devices look up the functions in a kernel by their names. The scopes that the text shows are those
of the generator, with every function in the way that a device knows it. So the text of the kernel
of a formula computes the value of the formula, if no user function of the formula is captured.

## Main definitions

* `Meaning.map` — the meaning of a name, with functions known in another way
* `Formula.Clear`, `Formula.ClearOver` — the text of the kernel is clear about the functions it
  calls

## Main results

* `KernelText.meanings_of_clear` — every name means the function that is called
* `Formula.value_eq_compute` — the text computes the value of the formula
* `Arithmetic.results_byTree` — what devices compute is what the tree says
-/

namespace DistributedVector

open Text

variable {ν μ V : Type}

/-! ## Scopes -/

/-- The meaning of a name where functions are known in another way. -/
def Meaning.map {φ ψ : Type} (g : φ → ψ) : Meaning φ → Meaning ψ
  | value => value
  | function h => function (g h)
  | kernel => kernel

/-- Names mean the same, whichever way functions are known. -/
theorem meanings_map {φ ψ : Type} (g : φ → ψ) (name : String) (scopes : List (Scope φ)) :
    meanings name (scopes.map (List.map (Prod.map id (Meaning.map g)))) =
      (meanings name scopes).map (Meaning.map g) := by
  induction scopes with
  | nil => rfl
  | cons scope outer ih =>
    have hfilter : (scope.map (Prod.map id (Meaning.map g))).filter (·.1 = name) =
        (scope.filter (·.1 = name)).map (Prod.map id (Meaning.map g)) := by
      rw [List.filter_map]
      rfl
    rw [List.map_cons, meanings, meanings, hfilter]
    cases hfound : scope.filter (·.1 = name) with
    | nil => exact ih
    | cons p rest => simp [Function.comp_def]

namespace KernelText

/-- The scopes that a text shows are those of the kernel, with functions as a device knows them. -/
theorem scopes_eq {source : KernelSource} {us : List UserFunction} {parameters : List Mention}
    (hparameters : parameters.map Mention.name = source.parameters.map Parameter.name)
    (hus : ∀ u ∈ us, isIdentifier u.name) (r : Reading Mention) :
    (⟨us.map UserFunction.declaration, source.name, parameters, r⟩ : KernelText).scopes =
      (source.scopes us).map (List.map (Prod.map id (Meaning.map Function.callee))) := by
  have hfunctions : (us.map UserFunction.declaration).map
        (fun d => (declaredName d, Meaning.function (Callee.declared d))) =
      (us.map fun u => (u.name, Meaning.function (Function.user u))).map
        (Prod.map id (Meaning.map Function.callee)) := by
    rw [List.map_map, List.map_map]
    exact List.map_congr_left fun u hu => by
      simp only [Function.comp_apply, declaredName_declaration (hus u hu)]
      rfl
  have hvalues : parameters.map (fun m => (m.name, Meaning.value)) =
      (source.parameters.map fun p => (p.name, Meaning.value)).map
        (Prod.map id (Meaning.map Function.callee)) := by
    have hnames :=
      congrArg (List.map fun name => (name, (Meaning.value : Meaning Callee))) hparameters
    rw [List.map_map, List.map_map] at hnames
    rw [List.map_map]
    exact hnames
  rw [scopes, KernelSource.scopes]
  simp only [List.map_cons, List.map_nil, List.map_append, hfunctions, hvalues]
  rfl

end KernelText

/-! ## Functions -/

namespace Formula

mutual

theorem functions_native_map (g : ν → DataType) : (f : Formula ν) →
    (f.map g).native.functions = f.functions
  | vector _ | scalar _ _ => rfl
  | unary _ e => functions_native_map g e
  | binary _ l r => by
    simp only [map, native, functions, functions_native_map g l, functions_native_map g r]
  | call h args => by simp only [map, native, functions, functionsOfArgs_native_map g args]

theorem functionsOfArgs_native_map (g : ν → DataType) : (args : List (Formula ν)) →
    functionsOfArgs (nativeArgs (mapArgs g args)) = functionsOfArgs args
  | [] => rfl
  | e :: rest => by
    simp only [mapArgs, nativeArgs, functionsOfArgs, functions_native_map g e,
      functionsOfArgs_native_map g rest]

end

theorem kind_native (leaf : Terminal ν) : leaf.native.kind = leaf.kind := by
  cases leaf <;> rfl

theorem length_terminals_native_map (g : ν → DataType) (f : Formula ν) :
    (f.map g).native.terminals.length = f.terminals.length := by
  rw [terminals_native, terminals_map, List.length_map, List.length_map]

theorem lower_native_map (g : ν → DataType) (f : Formula ν) : (f.map g).native.lower = f.lower := by
  rw [lower_congr (shape_native (f.map g)), lower, lower, lowerFrom_map]

/-- The text of the formula's kernel is clear about the functions that are called: user functions
have identifiers as names, their declarations stand alone, and none of them is captured. -/
structure Clear (f : Formula ν) (kernel : String) : Prop where
  names : ∀ u ∈ f.userCalls, isIdentifier u.name
  alone : ∀ u ∈ f.userCalls, u.StandsAlone
  uncaptured : f.Uncaptured kernel

/-- Without calls of user functions, nothing is unclear. -/
theorem clear_of_userCalls_eq_nil {f : Formula ν} (h : f.userCalls = []) (kernel : String) :
    f.Clear kernel := by
  have hnone : ∀ u, u ∉ f.userCalls := fun u => by
    rw [h]
    exact List.not_mem_nil
  exact ⟨fun u hu => absurd hu (hnone u), fun u hu => absurd hu (hnone u),
    fun u hu => absurd hu (hnone u), fun u hu => absurd hu (hnone u)⟩

theorem Clear.native_map {f : Formula ν} {kernel : String} (h : f.Clear kernel) (g : ν → DataType) :
    (f.map g).native.Clear kernel := by
  have hcalls : ∀ u, u ∈ (f.map g).native.userCalls → u ∈ f.userCalls := fun u hu => by
    rwa [mem_userCalls, functions_native_map, ← mem_userCalls] at hu
  refine ⟨fun u hu => h.names u (hcalls u hu), fun u hu => h.alone u (hcalls u hu),
    fun u hu k hk => ?_, fun u hu => ?_⟩
  · rw [functions_native_map] at hk
    exact h.uncaptured.apart u (hcalls u hu) k hk
  · rw [reserved, length_terminals_native_map]
    exact h.uncaptured.free u (hcalls u hu)

end Formula

namespace Reading

mutual

/-- A term has a value where its leaves have one. -/
theorem exists_value (A : Arithmetic V) {leaf : Mention → Option V}
    (means : String → List (Meaning Callee)) : (t : Reading Mention) →
    (∀ m ∈ t.leaves, ∃ a, leaf m = some a) → ∃ a, t.value A leaf means = some a
  | .leaf m, h => h m List.mem_cons_self
  | unary op t, h => by
    obtain ⟨a, ha⟩ := exists_value A means t h
    exact ⟨A.unary op a, by rw [value, ha]; rfl⟩
  | binary op l r, h => by
    obtain ⟨a, ha⟩ := exists_value A means l fun m hm => h m (List.mem_append_left _ hm)
    obtain ⟨b, hb⟩ := exists_value A means r fun m hm => h m (List.mem_append_right _ hm)
    exact ⟨A.binary op a b, by rw [value, ha, hb]; rfl⟩
  | call name args, h => by
    obtain ⟨as, has⟩ := exists_values A means args h
    exact ⟨A.callNamed name (means name) as, by rw [value, has]; rfl⟩

theorem exists_values (A : Arithmetic V) {leaf : Mention → Option V}
    (means : String → List (Meaning Callee)) : (args : List (Reading Mention)) →
    (∀ m ∈ leavesOfArgs args, ∃ a, leaf m = some a) → ∃ as, values A leaf means args = some as
  | [], _ => ⟨[], rfl⟩
  | t :: rest, h => by
    obtain ⟨a, ha⟩ := exists_value A means t fun m hm => h m (List.mem_append_left _ hm)
    obtain ⟨as, has⟩ := exists_values A means rest fun m hm => h m (List.mem_append_right _ hm)
    exact ⟨a :: as, by rw [values, ha, has]; rfl⟩

end

end Reading

namespace KernelText

open Formula

/-- In the text of a kernel that is clear, every name of a function means the function that is
called. -/
theorem meanings_of_clear {f : Formula DataType} {result : DataType} {source : KernelSource}
    (h : KernelSource.ofFormula f result = .ok source) (hclear : f.Clear source.name) :
    ∃ t k, f.lower = .ok t ∧ read source.text = some k ∧ k.parameters = mentions 1 f.terminals ∧
      k.term = t.reading ∧ ∀ g ∈ f.functions, meanings g.name k.scopes = [.function g.callee] := by
  obtain ⟨t, ht, hread⟩ := read_of_ofFormula h hclear.names hclear.alone
  refine ⟨t, _, ht, hread, rfl, rfl, fun g hg => ?_⟩
  obtain ⟨-, -, -, hparameters, -⟩ := KernelSource.ofFormula_eq_ok h
  have hnames : source.parameters.map Parameter.name =
      (List.range' 1 f.terminals.length).map parameterName := by
    rw [hparameters, Formula.parameters, names_parametersFrom]
  have hmentions : (mentions 1 f.terminals).map Mention.name =
      source.parameters.map Parameter.name := by
    rw [hparameters, Formula.parameters, ← map_parametersFrom, List.map_map]
    rfl
  have hkernel : '_' ∈ source.name.toList :=
    KernelSource.name_of_ofFormula h ▸ underscore_mem_kernelName _ _
  have hus : ∀ u ∈ f.userFunctions, isIdentifier u.name := fun u hu =>
    hclear.names u (mem_distinct.mp hu)
  rw [scopes_eq hmentions hus, meanings_map,
    (KernelSource.meanings_eq_iff hnames hkernel).mpr hclear.uncaptured g hg]
  rfl

/-- A parameter has the value at its place among the arguments. -/
theorem argument?_of_nodup {k : KernelText} (hnodup : k.parameters.Nodup) {i : Nat} {m : Mention}
    (hm : k.parameters[i]? = some m) (args : List V) : k.argument? args m = args[i]? := by
  obtain ⟨hi, rfl⟩ := List.getElem?_eq_some_iff.mp hm
  have hfind : k.parameters.idxOf? k.parameters[i] = some i := by
    rw [List.idxOf?, List.findIdx?_eq_some_iff_getElem]
    refine ⟨hi, beq_self_eq_true _, fun j hj hsame => ?_⟩
    have hsame := (hnodup.getElem_inj_iff).mp (eq_of_beq hsame)
    omega
  rw [argument?, hfind, Option.bind_some]

end KernelText

namespace Formula

/-- The text of the formula's kernel into a type is clear, for vectors that are types with
elements. -/
def ClearOver (type : ElementType) (look : ν → Option (ElementType × List Scalar)) (f : Formula ν) :
    Prop :=
  f.Clear ((f.map fun v => DataType.ofVector (look v)).kernelName (some (.element type)))

/-- The text of the kernel of a formula computes the value of the formula, if it is clear. -/
theorem value_eq_compute {A : Arithmetic V} {f : Formula ν} {type : ElementType}
    {look : ν → Option (ElementType × List Scalar)} {text : String} {leaf : Terminal ν → Option V}
    {args : List V} (htext : f.kernelTextOver? type look = some text)
    (hclear : f.ClearOver type look)
    (hargs : f.terminals.mapM leaf = some args) : f.value A leaf = some (A.compute text args) := by
  let g := (f.map fun v => DataType.ofVector (look v)).native
  obtain ⟨source, hsource, rfl⟩ := Option.map_eq_some_iff.mp htext
  have hsource : KernelSource.ofFormula g (.element type) = .ok source :=
    toOption_eq_some_iff.mp hsource
  have hclear' : g.Clear source.name := by
    rw [KernelSource.name_of_ofFormula hsource, kernelName_congr (shape_native _)]
    exact hclear.native_map _
  obtain ⟨t, k, ht, hread, hparameters, hterm, hmeans⟩ :=
    KernelText.meanings_of_clear hsource hclear'
  obtain ⟨p, hp, rfl⟩ := map_eq_ok_iff.mp ((lower_native_map _ f).symm.trans ht)
  -- the mention of a leaf has the place of the leaf among the arguments
  have hleaf : ∀ i leaf', f.terminals[i]? = some leaf' →
      k.argument? args ⟨leaf'.kind, parameterName (1 + i)⟩ = leaf leaf' := by
    intro i leaf' hi
    have hmention : k.parameters[i]? = some ⟨leaf'.kind, parameterName (1 + i)⟩ := by
      have hi' : g.terminals[i]? = some (leaf'.map fun v => DataType.ofVector (look v)).native := by
        rw [terminals_native, terminals_map, List.getElem?_map, List.getElem?_map, hi]
        rfl
      rw [hparameters, getElem?_mentions hi', kind_native, kind_map]
    obtain ⟨a, ha, hvalue⟩ := getElem?_of_forall₂ (mapM_eq_some_iff.mp hargs) hi
    rw [KernelText.argument?_of_nodup (hparameters ▸ (nodup_mentions 1 g.terminals).of_map _)
      hmention, ha, hvalue]
  have hvalue :=
    (value_reading A leaf (k.argument? args) (meanings · k.scopes) f hp hleaf fun h hh =>
    hmeans h (by rwa [functions_native_map])).2
  obtain ⟨o, ho⟩ := exists_reading_of_lowerFrom f hp
  obtain ⟨t, ht', -, hleaves, -⟩ := lowerFrom_reading f ho 1
  obtain rfl := congrArg Prod.fst (Except.ok.inj (hp.symm.trans ht'))
  obtain ⟨a, ha⟩ := Reading.exists_value A (meanings · k.scopes) p.1.reading fun m hm => by
    obtain ⟨i, hi⟩ := List.getElem?_of_mem (hleaves ▸ hm)
    rw [mentions, List.getElem?_map, List.getElem?_zipIdx, Option.map_map,
      Option.map_eq_some_iff] at hi
    obtain ⟨leaf', hleaf', rfl⟩ := hi
    obtain ⟨a, -, ha⟩ := getElem?_of_forall₂ (mapM_eq_some_iff.mp hargs) hleaf'
    exact ⟨a, (hleaf i leaf' hleaf').trans ha⟩
  rw [← hvalue, ha, Arithmetic.compute, hread, Arithmetic.computeRead, Option.bind_some,
    KernelText.value, hterm, ha, Option.getD_some]

end Formula

namespace Arithmetic

open Formula

variable {A : Arithmetic V} {type : ElementType} {n : Nat} {f : Formula ν}
  {look : ν → Option (ElementType × List Scalar)} {xs : List Scalar}

/-- What devices compute for a formula whose kernel is clear is what the tree says. -/
theorem results_byTree (hclear : f.ClearOver type look)
    (h : A.byKernel.results type n look f = some xs) :
    A.byTree.results type n look f = some xs := by
  refine Evaluation.results_imp (fun i _ x hx => ?_) h
  obtain ⟨text, args, htext, hargs, rfl⟩ := kernelAt_eq_some.mp hx
  have hvalue := value_eq_compute (A := A) htext hclear hargs
  exact Option.map_eq_some_iff.mpr ⟨_, hvalue, rfl⟩

end Arithmetic

end DistributedVector
